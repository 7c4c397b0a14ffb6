import PortableSql.Proofs.Literal.SelfDelimiting
import PortableSql.Proofs.Render.Outcome
import PortableSql.Proofs.Text.Run

/-!
# Lists of literals delimit themselves

A list of literals in parentheses is read back item by item. No text in it can pass for the comma
between two items or for the closing parenthesis, whatever characters it is made of.

* `Literal.isLegible`: the kinds that are told apart by how they are written.
* `bytes?`, `bytes?_flatMap_hexByte`: pairs of hexadecimal digits stand for bytes.
* **`Engine.readLiteral`**, **`Engine.readItems`**, **`Engine.readList`**: how an engine reads a
  literal, literals with commas between them, and a list.
* `Dialect.Writes`, `Dialect.exists_writes`: a literal is written as a text that is read as it, as
  long as neither a quote nor a digit follows.
* `Dialect.readItems_join`: the same for several literals.
* **`Dialect.readList_quoteList`**: a quoted list is read back, and no other list is quoted alike.
-/

namespace PortableSql

/-- The literals that are told apart by how they are written. A truth value is written as a text,
and a float without a fraction as an integer. -/
def Literal.isLegible : Literal → Bool
  | .null | .int _ | .text _ | .blob _ => true
  | .bool _ | .float _ => false

/-! ## Bytes -/

/-- The value of an upper-case hexadecimal digit. -/
def hexValue? (c : Char) : Option Nat :=
  if c.isDigit then some (c.toNat - '0'.toNat)
  else if 'A' ≤ c ∧ c ≤ 'F' then some (c.toNat - 'A'.toNat + 10)
  else none

/-- **The bytes that pairs of digits stand for.** -/
def bytes? : List Char → Option (List UInt8)
  | [] => some []
  | [_] => none
  | a :: b :: cs => do
    let high ← hexValue? a
    let low ← hexValue? b
    return UInt8.ofNat (16 * high + low) :: (← bytes? cs)

theorem hexValue?_hexDigit : ∀ n < 16, hexValue? (Text.hexDigit 'A' n) = some n := by decide

theorem hexDigit_ne_quote : ∀ n < 16, Text.hexDigit 'A' n ≠ '\'' := by decide

theorem digits_lt (b : UInt8) : b.toNat / 16 < 16 ∧ b.toNat % 16 < 16 :=
  ⟨Nat.div_lt_of_lt_mul b.toNat_lt, Nat.mod_lt _ (by decide)⟩

theorem quote_not_mem_flatMap_hexByte (bytes : List UInt8) : '\'' ∉ bytes.flatMap hexByte := by
  intro h
  obtain ⟨b, -, hb⟩ := List.mem_flatMap.mp h
  obtain ⟨hhigh, hlow⟩ := digits_lt b
  rcases List.mem_pair.mp hb with h | h
  · exact hexDigit_ne_quote _ hhigh h.symm
  · exact hexDigit_ne_quote _ hlow h.symm

/-- Reading undoes writing. -/
theorem bytes?_flatMap_hexByte (bytes : List UInt8) :
    bytes? (bytes.flatMap hexByte) = some bytes := by
  induction bytes with
  | nil => rfl
  | cons b bytes ih =>
    obtain ⟨hhigh, hlow⟩ := digits_lt b
    have hbyte : UInt8.ofNat (16 * (b.toNat / 16) + b.toNat % 16) = b := by
      rw [Nat.div_add_mod, UInt8.ofNat_toNat]
    rw [List.flatMap_cons, hexByte, List.cons_append, List.cons_append, List.nil_append, bytes?,
      hexValue?_hexDigit _ hhigh, hexValue?_hexDigit _ hlow, ih]
    exact congrArg (fun c => some (c :: bytes)) hbyte

/-! ## Readers -/

namespace Engine

/-- The integer in a numeral, if it has at most 64 bits. -/
def readInt64 (cs : List Char) : Option (Literal × List Char) := do
  let (n, rest) ← Text.readInt cs
  if Int64.minValue.toInt ≤ n ∧ n ≤ Int64.maxValue.toInt then some (.int (Int64.ofInt n), rest)
  else none

/-- **Reads the literal that an input starts with**, and what comes after it. -/
def readLiteral (e : Engine) : List Char → Option (Literal × List Char)
  | 'N' :: 'U' :: 'L' :: 'L' :: cs => some (.null, cs)
  | '\'' :: cs => do
    let (s, rest) ← Text.readInside '\'' e.escapeSign cs
    return (.text (String.ofList s), rest)
  | 'X' :: '\'' :: cs => do
    let (digits, rest) ← Text.readInside '\'' none cs
    return (.blob (← bytes? digits), rest)
  | cs => readInt64 cs

/-- What is left is not longer. -/
theorem length_le_of_readLiteral {e : Engine} {cs rest : List Char} {l : Literal}
    (h : e.readLiteral cs = some (l, rest)) : rest.length ≤ cs.length := by
  unfold readLiteral at h
  split at h
  case h_1 =>
    cases h
    simp only [List.length_cons]
    omega
  case h_2 =>
    obtain ⟨p, hread, hp⟩ := Option.bind_eq_some_iff.mp h
    cases hp
    exact Nat.le_succ_of_le (Text.length_lt_of_readInside hread).le
  case h_3 =>
    obtain ⟨p, hread, hp⟩ := Option.bind_eq_some_iff.mp h
    obtain ⟨bytes, -, hp⟩ := Option.bind_eq_some_iff.mp hp
    cases hp
    have hlt := Text.length_lt_of_readInside hread
    simp only [List.length_cons]
    omega
  case h_4 =>
    obtain ⟨⟨n, _⟩, hread, hp⟩ := Option.bind_eq_some_iff.mp h
    dsimp only at hp
    split at hp
    case isTrue =>
      cases hp
      exact Text.length_le_of_readInt hread
    case isFalse => cases hp

/-- **Reads literals with commas between them**, up to the closing parenthesis. -/
def readItems (e : Engine) (cs : List Char) : Option (List Literal × List Char) :=
  match _h : e.readLiteral cs with
  | some (l, ')' :: rest) => some ([l], rest)
  | some (l, ',' :: ' ' :: rest) => (e.readItems rest).map fun p => (l :: p.1, p.2)
  | _ => none
termination_by cs.length
decreasing_by
  have hle := length_le_of_readLiteral _h
  simp only [List.length_cons] at hle
  omega

/-- **Reads the list that an input starts with**, and what comes after it. -/
def readList (e : Engine) : List Char → Option (List Literal × List Char)
  | '(' :: ')' :: rest => some ([], rest)
  | '(' :: cs => e.readItems cs
  | _ => none

variable {e : Engine} {cs rest : List Char} {l : Literal}

/-- What starts with an integer starts with no literal of another kind. -/
theorem readLiteral_of_readInt64 {p : Literal × List Char} (h : readInt64 cs = some p) :
    e.readLiteral cs = some p := by
  unfold readLiteral
  split
  case h_1 => nomatch h
  case h_2 => nomatch h
  case h_3 => nomatch h
  case h_4 => exact h

theorem readItems_of_close (h : e.readLiteral cs = some (l, ')' :: rest)) :
    e.readItems cs = some ([l], rest) := by
  rw [readItems]
  split
  case h_1 hx =>
    rw [h] at hx
    cases hx
    rfl
  case h_2 hx =>
    rw [h] at hx
    cases hx
  case h_3 hne _ => exact absurd h (hne l rest)

theorem readItems_of_comma (h : e.readLiteral cs = some (l, ',' :: ' ' :: rest)) :
    e.readItems cs = (e.readItems rest).map fun p => (l :: p.1, p.2) := by
  rw [readItems]
  split
  case h_1 hx =>
    rw [h] at hx
    cases hx
  case h_2 hx =>
    rw [h] at hx
    cases hx
    rfl
  case h_3 _ hne => exact absurd h (hne l rest)

/-- What starts with an item is not the end of a list. -/
theorem readList_of_readItems {p : List Literal × List Char} (h : e.readItems cs = some p) :
    e.readList ('(' :: cs) = some p := by
  unfold readList
  split
  case h_1 hx =>
    cases hx
    rw [readItems] at h
    nomatch h
  case h_2 hx =>
    cases hx
    exact h
  case h_3 _ hne => exact absurd rfl (hne cs)

end Engine

/-! ## Writing and reading -/

theorem Text.readInside_of_not_mem {close : Char} {cs rest : List Char} (hcs : close ∉ cs)
    (h : rest.head? ≠ some close) :
    readInside close none (cs ++ close :: rest) = some (cs, rest) := by
  induction cs with
  | nil => exact readInside_close (Option.some_ne_none close) h
  | cons c cs ih =>
    rw [List.mem_cons, not_or] at hcs
    rw [List.cons_append, readInside_cons (Option.some_ne_none c) (Ne.symm hcs.1), ih hcs.2]
    rfl

namespace Dialect

/-- **The literal is written as the text, and the text is read as the literal**, whatever follows
it, as long as that begins with neither a quote nor a digit. -/
structure Writes (d : Dialect) (l : Literal) (s : String) : Prop where
  quoteLiteral : d.quoteLiteral l = .ok s
  readLiteral : ∀ rest : List Char, (∀ c ∈ rest.head?, c ≠ '\'' ∧ c.isDigit = false) →
    d.engine.readLiteral (s.toList ++ rest) = some (l, rest)

variable {d : Dialect}

theorem writes_int (n : Int64) : d.Writes (.int n) (toString n.toInt) where
  quoteLiteral := rfl
  readLiteral rest h := by
    refine Engine.readLiteral_of_readInt64 ?_
    rw [Engine.readInt64, Text.readInt_toString n.toInt fun c hc => (h c hc).2, Option.bind_eq_bind,
      Option.bind_some]
    dsimp only
    rw [if_pos ⟨n.minValue_le_toInt, n.toInt_le⟩, Int64.ofInt_toInt]

theorem exists_writes {l : Literal} (h : l.isLegible = true) : ∃ s, d.Writes l s := by
  have hquote {rest : List Char} (h : ∀ c ∈ rest.head?, c ≠ '\'' ∧ c.isDigit = false) :
      rest.head? ≠ some '\'' := fun hc => (h _ hc).1 rfl
  cases l with
  | null => exact ⟨"NULL", rfl, fun rest _ => rfl⟩
  | bool b => cases h
  | int n => exact ⟨_, writes_int n⟩
  | float x => cases h
  | text s =>
    refine ⟨_, rfl, fun rest hrest => ?_⟩
    have hread := d.engine.readInside_escape s (hquote hrest)
    rw [escape, Engine.toList_quoteText_append, Engine.readLiteral, hread]
    simp
  | blob bytes =>
    refine ⟨_, rfl, fun rest hrest => ?_⟩
    have hinput : ("X'" ++ String.ofList (bytes.flatMap hexByte) ++ "'").toList ++ rest =
        'X' :: '\'' :: (bytes.flatMap hexByte ++ '\'' :: rest) := by
      simp [String.toList_append]
    have hread := Text.readInside_of_not_mem (quote_not_mem_flatMap_hexByte bytes) (hquote hrest)
    rw [hinput, Engine.readLiteral, hread]
    simp [bytes?_flatMap_hexByte]

/-- **Literals with commas between them are read back**, up to the closing parenthesis. -/
theorem readItems_join {ls : List Literal} {ss : List String} (h : List.Forall₂ d.Writes ls ss)
    (hne : ls ≠ []) (rest : List Char) :
    d.engine.readItems ((Text.join ", " ss).toList ++ ')' :: rest) = some (ls, rest) := by
  induction h with
  | nil => exact absurd rfl hne
  | @cons l s ls ss hl h ih =>
    cases h with
    | nil => exact Engine.readItems_of_close (hl.readLiteral (')' :: rest) (by simp))
    | @cons m t ms ts hm h =>
      have hinput : (Text.join ", " (s :: t :: ts)).toList ++ ')' :: rest =
          s.toList ++ ',' :: ' ' :: ((Text.join ", " (t :: ts)).toList ++ ')' :: rest) := by
        simp [Text.join, String.toList_append]
      rw [hinput, Engine.readItems_of_comma (hl.readLiteral _ (by simp)),
        ih (List.cons_ne_nil m ms)]
      rfl

/-- A list of legible literals is quoted, and what is written is read as it, whatever follows. -/
theorem exists_quoteList {ls : List Literal} (h : ∀ l ∈ ls, l.isLegible = true) :
    ∃ text, d.quoteList ls = .ok text ∧
      ∀ rest : String, d.engine.readList (text ++ rest).toList = some (ls, rest.toList) := by
  obtain ⟨ss, hss⟩ := exists_forall₂ fun l hl => exists_writes (d := d) (h l hl)
  have heach : d.quoteEach ls = .ok ss :=
    quoteEach_eq_ok_iff.mpr (hss.imp fun _ _ hw => hw.quoteLiteral)
  refine ⟨"(" ++ Text.join ", " ss ++ ")", by rw [quoteList, heach]; rfl, fun rest => ?_⟩
  have hinput : ("(" ++ Text.join ", " ss ++ ")" ++ rest).toList =
      '(' :: ((Text.join ", " ss).toList ++ ')' :: rest.toList) := by
    simp [String.toList_append]
  rw [hinput]
  cases ls with
  | nil =>
    cases hss
    rfl
  | cons l ls => exact Engine.readList_of_readItems (readItems_join hss (List.cons_ne_nil l ls) _)

/-- **A quoted list is read back**, item by item and as a whole, whatever follows it, and no other
list is quoted alike. -/
theorem readList_quoteList (d : Dialect) {ls : List Literal} (h : ∀ l ∈ ls, l.isLegible = true) :
    (∃ text, d.quoteList ls = .ok text ∧
        ∀ rest : String, d.engine.readList (text ++ rest).toList = some (ls, rest.toList)) ∧
      (∀ l ∈ ls, ∃ s, d.quoteLiteral l = .ok s ∧ d.engine.readLiteral s.toList = some (l, [])) ∧
      ∀ ms : List Literal, (∀ m ∈ ms, m.isLegible = true) →
        d.quoteList ms = d.quoteList ls → ms = ls := by
  obtain ⟨text, htext, hread⟩ := exists_quoteList (d := d) h
  refine ⟨⟨text, htext, hread⟩, fun l hl => ?_, fun ms hms hsame => ?_⟩
  · obtain ⟨s, hs⟩ := exists_writes (d := d) (h l hl)
    have hend := hs.readLiteral [] (by simp)
    rw [List.append_nil] at hend
    exact ⟨s, hs.quoteLiteral, hend⟩
  · obtain ⟨_, htextms, hreadms⟩ := exists_quoteList (d := d) hms
    obtain rfl := Except.ok.inj (htextms.symm.trans (hsame.trans htext))
    have hboth := (hreadms "").symm.trans (hread "")
    exact (Prod.mk.inj (Option.some.inj hboth)).1

/-- Texts that look like the end of an item or of the list, the two extreme integers, a byte that is
a quote, and an empty text. -/
theorem readList_quoteList_lookalikes :
    let d : Dialect := .prefixed (.configured ⟨.mysql, "p_", none⟩) "q_"
    let ls : List Literal := [.text "a', 'b", .text "\\', NULL)", .int Int64.minValue,
      .int Int64.maxValue, .blob [39, 255, 0], .null, .text "X'", .blob [], .text ""]
    let text := "('a'', ''b', '\\\\'', NULL)', -9223372036854775808, 9223372036854775807, " ++
      "X'27FF00', NULL, 'X''', X'', '')"
    (∀ l ∈ ls, l.isLegible = true) ∧ d.quoteList ls = .ok text ∧
      (∃ text, d.quoteList ls = .ok text ∧
          ∀ rest : String, d.engine.readList (text ++ rest).toList = some (ls, rest.toList)) ∧
        (∀ l ∈ ls, ∃ s, d.quoteLiteral l = .ok s ∧ d.engine.readLiteral s.toList = some (l, [])) ∧
        ∀ ms : List Literal, (∀ m ∈ ms, m.isLegible = true) →
          d.quoteList ms = d.quoteList ls → ms = ls := by
  refine ⟨?legible, rfl, readList_quoteList _ ?legible⟩
  case legible => simp [Literal.isLegible]

-- a truth value is quoted as a text
example : (builtin .sqlite).quoteList [.bool true] = (builtin .sqlite).quoteList [.text "1"] := rfl

end Dialect

end PortableSql
