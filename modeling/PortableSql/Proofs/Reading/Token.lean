import Mathlib.Tactic.SplitIfs
import PortableSql.Proofs.Literal.SelfDelimiting
import PortableSql.Text.Blank
import PortableSql.Text.WordChar

/-!
# Tokens of SQL text

SQL text is read as words, quoted texts, parentheses and single characters; blanks only keep tokens
apart. The reader goes from character to character, and a mode remembers what it stands in.

* `Token`, `Delimiter`, **`Mode`**, `Mode.step`: the tokens, and what a character does in a mode.
* **`Dialect.tokens`**: the tokens of a text, unless a quoted text is left open.
* `Dialect.Separates`: delimiters of names that are neither blanks nor parentheses.
* **`tokens_append`**: before a blank or a parenthesis the tokens are complete.
-/

namespace PortableSql

/-- **A token of SQL text**; `delimiter` opens the quoted text. -/
inductive Token where
  | word (cs : List Char)
  | quoted (delimiter : Char) (cs : List Char)
  | symbol (c : Char)
  | opening
  | closing
  deriving Repr, DecidableEq

/-- What delimits a quoted text: two delimiters, and the sign that makes the next character stand
for itself. -/
structure Delimiter where
  left : Char
  right : Char
  escape : Option Char
  deriving Repr, DecidableEq

/-- **What the reader stands in**: outside of quoted texts, with the word that is being read; or in
a quoted text, after an escape in it, or after a closing delimiter that may be a doubled one. -/
inductive Mode where
  | plain (word : List Char)
  | inside (q : Delimiter) (text : List Char)
  | escaped (q : Delimiter) (text : List Char)
  | closed (q : Delimiter) (text : List Char)
  deriving Repr, DecidableEq

namespace Mode

/-- The token of a word, if it has characters. -/
def ended : List Char → List Token
  | [] => []
  | word => [.word word]

/-- The tokens that end with the text, if it may end in the mode. -/
def finish : Mode → Option (List Token)
  | plain word => some (ended word)
  | inside _ _ | escaped _ _ => none
  | closed q text => some [.quoted q.left text]

/-- A character outside of words and quoted texts. -/
def start (delimiters : List Delimiter) (c : Char) : List Token × Mode :=
  match delimiters.find? (·.left = c) with
  | some q => ([], inside q [])
  | none =>
    if c = '(' then ([.opening], plain [])
    else if c = ')' then ([.closing], plain [])
    else if Text.isBlank c then ([], plain [])
    else ([.symbol c], plain [])

/-- A character outside of quoted texts. -/
def next (delimiters : List Delimiter) (word : List Char) (c : Char) : List Token × Mode :=
  if Text.isWordChar c then ([], plain (word ++ [c]))
  else (ended word ++ (start delimiters c).1, (start delimiters c).2)

/-- **The tokens that a character completes, and the mode after it.** -/
def step (delimiters : List Delimiter) : Mode → Char → List Token × Mode
  | plain word, c => next delimiters word c
  | inside q text, c =>
    if some c = q.escape then ([], escaped q text)
    else if c = q.right then ([], closed q text)
    else ([], inside q (text ++ [c]))
  | escaped q text, c => ([], inside q (text ++ [c]))
  | closed q text, c =>
    if c = q.right then ([], inside q (text ++ [c]))
    else (.quoted q.left text :: (next delimiters [] c).1, (next delimiters [] c).2)

/-- The tokens of characters that are read in a mode. -/
def tokens (delimiters : List Delimiter) : Mode → List Char → Option (List Token)
  | m, [] => m.finish
  | m, c :: cs =>
    (tokens delimiters (m.step delimiters c).2 cs).map ((m.step delimiters c).1 ++ ·)

end Mode

namespace Dialect

/-- The delimiters of text literals and of names. -/
def delimiters (d : Dialect) : List Delimiter :=
  [⟨'\'', '\'', d.engine.escapeSign⟩, ⟨d.quotes.left, d.quotes.right, none⟩]

/-- **The tokens of a text** in the dialect. -/
def tokens (d : Dialect) (text : String) : Option (List Token) :=
  Mode.tokens d.delimiters (.plain []) text.toList

end Dialect

/-- The characters that keep tokens apart. -/
def separators : List Char := [' ', '(', ')']

/-- **Separators stand for themselves**: neither delimiter of names is a blank or a parenthesis. -/
def Dialect.Separates (d : Dialect) : Prop :=
  d.quotes.left ∉ separators ∧ d.quotes.right ∉ separators

instance (d : Dialect) : Decidable d.Separates := by
  unfold Dialect.Separates
  infer_instance

namespace Mode

/-- The quoted text that is being read, if there is one, has one of the delimiters. -/
def Uses (delimiters : List Delimiter) : Mode → Prop
  | plain _ => True
  | inside q _ | escaped q _ | closed q _ => q ∈ delimiters

theorem uses_start (delimiters : List Delimiter) (c : Char) :
    (start delimiters c).2.Uses delimiters := by
  rw [start]
  cases h : delimiters.find? (·.left = c) with
  | some q => exact List.mem_of_find?_eq_some h
  | none =>
    dsimp only
    split_ifs <;> trivial

theorem uses_next (delimiters : List Delimiter) (word : List Char) (c : Char) :
    (next delimiters word c).2.Uses delimiters := by
  rw [next]
  split_ifs
  · trivial
  · exact uses_start delimiters c

theorem uses_step {delimiters : List Delimiter} {m : Mode} (h : m.Uses delimiters) (c : Char) :
    (m.step delimiters c).2.Uses delimiters := by
  cases m with
  | plain word => exact uses_next delimiters word c
  | inside q text =>
    rw [step]
    split_ifs <;> exact h
  | escaped q text => exact h
  | closed q text =>
    rw [step]
    split_ifs
    · exact h
    · exact uses_next delimiters [] c

variable {d : Dialect} (hd : d.Separates) {c : Char} (hc : c ∈ separators)

include hc

theorem next_separator (delimiters : List Delimiter) (word : List Char) :
    next delimiters word c =
      (ended word ++ (start delimiters c).1, (start delimiters c).2) := by
  have hword : separators.any Text.isWordChar = false := by decide
  rw [next, if_neg (List.any_eq_false.mp hword c hc)]

include hd

theorem find?_delimiters : d.delimiters.find? (·.left = c) = none := by
  have hmem : '\'' ∉ separators := by decide
  have hquote : '\'' ≠ c := fun h => hmem (h ▸ hc)
  have hleft : d.quotes.left ≠ c := fun h => hd.1 (h ▸ hc)
  simp [Dialect.delimiters, hleft, hquote]

theorem ne_right {q : Delimiter} (hq : q ∈ d.delimiters) : c ≠ q.right := by
  have hquote : '\'' ∉ separators := by decide
  simp only [Dialect.delimiters, List.mem_cons, List.not_mem_nil, or_false] at hq
  rcases hq with rfl | rfl
  · rintro rfl
    exact hquote hc
  · rintro rfl
    exact hd.2 hc

/-- A separator completes what may end, and is read as after nothing. -/
theorem step_separator {m : Mode} {ts : List Token} (h : m.finish = some ts)
    (hm : m.Uses d.delimiters) :
    m.step d.delimiters c =
      (ts ++ ((plain []).step d.delimiters c).1, ((plain []).step d.delimiters c).2) := by
  cases m with
  | plain word =>
    cases h
    rw [step, step, next_separator hc, next_separator hc]
    rfl
  | inside q text => cases h
  | escaped q text => cases h
  | closed q text =>
    cases h
    simp only [step, if_neg (ne_right hd hc hm)]
    rfl

/-- Before a separator the tokens are complete. -/
theorem tokens_append {m : Mode} {as : List Char} {ts : List Token}
    (h : tokens d.delimiters m as = some ts) (hm : m.Uses d.delimiters) (bs : List Char) :
    tokens d.delimiters m (as ++ c :: bs) =
      (tokens d.delimiters (plain []) (c :: bs)).map (ts ++ ·) := by
  induction as generalizing m ts with
  | nil =>
    rw [List.nil_append, tokens, tokens, step_separator hd hc h hm, Option.map_map]
    simp only [Function.comp_def, List.append_assoc]
  | cons a as ih =>
    rw [tokens] at h
    obtain ⟨us, hus, rfl⟩ := Option.map_eq_some_iff.mp h
    rw [List.cons_append, tokens, ih hus (uses_step hm a), Option.map_map]
    simp only [Function.comp_def, List.append_assoc]

end Mode

namespace Dialect

variable {d : Dialect} (hd : d.Separates)

include hd

/-- **Before a separator the tokens are complete.** -/
theorem tokens_append {s t : String} {ts : List Token} (hs : d.tokens s = some ts)
    (ht : ∃ c ∈ t.toList.head?, c ∈ separators) :
    d.tokens (s ++ t) = (d.tokens t).map (ts ++ ·) := by
  obtain ⟨c, hc, hsep⟩ := ht
  obtain ⟨bs, hbs⟩ := List.head?_eq_some_iff.mp hc
  rw [tokens, String.toList_append, tokens, hbs]
  exact Mode.tokens_append hd hsep hs trivial bs

theorem tokens_separator {c : Char} (hc : c ∈ separators) {ts : List Token}
    (hstart : Mode.start [] c = (ts, .plain [])) {s : String} (hs : s.toList = [c]) (t : String) :
    d.tokens (s ++ t) = (d.tokens t).map (ts ++ ·) := by
  rw [tokens, String.toList_append, hs, List.singleton_append, Mode.tokens, Mode.step,
    Mode.next_separator hc, Mode.start, Mode.find?_delimiters hd hc]
  rw [Mode.start, List.find?_nil] at hstart
  rw [hstart]
  rfl

/-- A blank leaves no token. -/
theorem tokens_blank (t : String) : d.tokens (" " ++ t) = d.tokens t := by
  have hstart : Mode.start [] ' ' = ([], .plain []) := by decide
  rw [tokens_separator hd (by decide) hstart (by decide)]
  exact Option.map_id_apply

theorem tokens_opening (t : String) : d.tokens ("(" ++ t) = (d.tokens t).map (.opening :: ·) := by
  have hstart : Mode.start [] '(' = ([.opening], .plain []) := by decide
  exact tokens_separator hd (by decide) hstart (by decide) t

theorem tokens_closing (t : String) : d.tokens (")" ++ t) = (d.tokens t).map (.closing :: ·) := by
  have hstart : Mode.start [] ')' = ([.closing], .plain []) := by decide
  exact tokens_separator hd (by decide) hstart (by decide) t

end Dialect

/-! ## Words -/

/-- **The text is one word.** -/
def IsWord (s : String) : Prop := s ≠ "" ∧ s.toList.all Text.isWordChar = true

instance (s : String) : Decidable (IsWord s) := by
  unfold IsWord
  infer_instance

theorem Mode.tokens_word (delimiters : List Delimiter) {cs : List Char}
    (h : cs.all Text.isWordChar = true) (word : List Char) :
    tokens delimiters (plain word) cs = some (ended (word ++ cs)) := by
  induction cs generalizing word with
  | nil => rw [tokens, finish, List.append_nil]
  | cons c cs ih =>
    obtain ⟨hc, hcs⟩ := Bool.and_eq_true_iff.mp h
    rw [tokens, step, next, if_pos hc, ih hcs, List.append_assoc]
    rfl

/-- A word is one token. -/
theorem Dialect.tokens_word (d : Dialect) {s : String} (h : IsWord s) :
    d.tokens s = some [.word s.toList] := by
  have hne : s.toList ≠ [] := fun hs => h.1 (String.toList_eq_nil_iff.mp hs)
  rw [tokens, Mode.tokens_word _ h.2, List.nil_append]
  cases hcs : s.toList with
  | nil => exact absurd hcs hne
  | cons c cs => rfl

-- a closing delimiter that is written twice, and a blank and a parenthesis in a quoted name
example : (Dialect.builtin .postgres).tokens "\"a b)\"<=('x''y' )" = some
    [.quoted '"' ['a', ' ', 'b', ')'], .symbol '<', .symbol '=', .opening,
      .quoted '\'' ['x', '\'', 'y'], .closing] := by
  decide

end PortableSql
