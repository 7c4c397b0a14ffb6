import PortableSql.Proofs.Name.Representation
import PortableSql.Proofs.Reading.Keyword
import PortableSql.Proofs.Reading.Quoted

/-!
# Names hold no words

Whatever characters the segments of a table have, its text is read as quoted texts and dots.

* `Dialect.Quotable`: delimiters of names that stand for nothing else.
* `Token.isWordless`, `Dialect.wordless_of_tokens`: tokens that are neither words nor parentheses.
* **`Dialect.tokens_path`**: the tokens of quoted segments; `Dialect.wordless_tableText`.
-/

namespace PortableSql

/-- **Delimiters of names that stand for nothing else**: neither is a blank, a parenthesis or a dot,
and the opening one neither belongs to words nor opens a text. -/
def Dialect.Quotable (d : Dialect) : Prop :=
  d.Separates ∧ (d.quotes.left ≠ '.' ∧ d.quotes.right ≠ '.') ∧ d.quotes.left ≠ '\'' ∧
    Text.isWordChar d.quotes.left = false

instance (d : Dialect) : Decidable d.Quotable := by
  unfold Dialect.Quotable
  infer_instance

theorem Engine.quotable (e : Engine) : (Dialect.builtin e).Quotable := by
  cases e <;> decide

/-- The token is neither a word nor a parenthesis. -/
def Token.isWordless : Token → Bool
  | .quoted _ _ | .symbol _ => true
  | .word _ | .opening | .closing => false

namespace Dialect

variable {d : Dialect}

/-- A text of such tokens has no words. -/
theorem wordless_of_tokens {text : String} {ts : List Token} (h : d.tokens text = some ts)
    (hts : ∀ t ∈ ts, t.isWordless = true) : d.Wordless text := by
  have hflat : ∀ t ∈ ts, t ≠ .opening ∧ t ≠ .closing := by
    intro t ht
    have := hts t ht
    constructor <;> rintro rfl <;> cases this
  refine ⟨(ts.map Node.token).map Node.word?, ?_, ?_⟩
  · rw [words, nodes, h, Option.bind_some, nodes?_of_flat hflat]
    rfl
  · intro w hw
    simp only [List.map_map, List.mem_map, Function.comp_apply] at hw
    obtain ⟨t, ht, rfl⟩ := hw
    have := hts t ht
    cases t with
    | quoted q cs | symbol c => rfl
    | word cs | opening | closing => cases this

variable (hd : d.Quotable)

include hd

/-- A dot between names. -/
theorem step_dot : (Mode.plain []).step d.delimiters '.' = ([.symbol '.'], .plain []) := by
  obtain ⟨-, ⟨hleft, -⟩, -, -⟩ := hd
  have hword : Text.isWordChar '.' = false := by decide
  have hblank : Text.isBlank '.' = false := by decide
  simp [Mode.step, Mode.next, Mode.start, Mode.ended, Dialect.delimiters, hword, hblank, hleft]

/-- **A quoted name, and what comes after it.** -/
theorem tokens_quote_append (s : String) {rest : List Char}
    (h : rest.head? ≠ some d.quotes.right) :
    Mode.tokens d.delimiters (.plain []) ((d.quote s).toList ++ rest) =
      Mode.tokens d.delimiters (.closed ⟨d.quotes.left, d.quotes.right, none⟩ s.toList) rest := by
  obtain ⟨-, -, hquote, hword⟩ := hd
  rw [toList_quote_append]
  refine Mode.tokens_left (q := ⟨d.quotes.left, d.quotes.right, none⟩) ?_ hword
    (Text.readInside_double _ _ h)
  simp [delimiters, hquote.symm]

/-- **Quoted segments are read as quoted texts and dots.** -/
theorem tokens_path (path : List String) :
    ∃ ts, d.tokens (Text.join "." (path.map d.quote)) = some ts ∧
      ∀ t ∈ ts, t.isWordless = true := by
  induction path with
  | nil => exact ⟨[], rfl, fun t ht => nomatch ht⟩
  | cons s path ih =>
    cases path with
    | nil =>
      have hend : ([] : List Char).head? ≠ some d.quotes.right := fun h => nomatch h
      have hquote := tokens_quote_append hd s hend
      rw [List.append_nil] at hquote
      exact ⟨[.quoted d.quotes.left s.toList], hquote, fun t ht => List.mem_singleton.mp ht ▸ rfl⟩
    | cons s' path =>
      obtain ⟨ts, hts, hwordless⟩ := ih
      have hright : '.' ≠ d.quotes.right := hd.2.1.2.symm
      have hinput : (Text.join "." ((s :: s' :: path).map d.quote)).toList =
          (d.quote s).toList ++ '.' :: (Text.join "." ((s' :: path).map d.quote)).toList := by
        simp [Text.join, String.toList_append]
      have hnext : ('.' :: (Text.join "." ((s' :: path).map d.quote)).toList).head? ≠
          some d.quotes.right := fun h => hright (Option.some.inj h)
      have hdot : (Mode.closed ⟨d.quotes.left, d.quotes.right, none⟩ s.toList).step d.delimiters
          '.' = ([.quoted d.quotes.left s.toList, .symbol '.'], .plain []) := by
        have hplain := step_dot hd
        rw [Mode.step] at hplain
        rw [Mode.step, if_neg hright, hplain]
      refine ⟨.quoted d.quotes.left s.toList :: .symbol '.' :: ts, ?_, ?_⟩
      · rw [tokens, hinput, tokens_quote_append hd s hnext, Mode.tokens, hdot, ← tokens, hts]
        rfl
      · simpa [Token.isWordless] using hwordless

/-- **The text of a table has no words.** -/
theorem wordless_tableText (n : Name) : d.Wordless (d.tableText n) := by
  obtain ⟨ts, hts, hwordless⟩ := tokens_path hd (n.tablePath d)
  have htext : d.tableText n = n.qualifier.lead ++ Text.join "." ((n.tablePath d).map d.quote) := by
    rw [Name.tablePath, List.map_append]
    exact d.qualifierText_append n.qualifier _
  by_cases hfilled : n.qualifier.Filled
  · rw [htext, Qualifier.lead_of_filled hfilled, String.empty_append]
    exact wordless_of_tokens hts hwordless
  · -- the dot that a list without segments leaves is a token of its own
    have hlead : d.tokens ("." ++ Text.join "." ((n.tablePath d).map d.quote)) =
        some (.symbol '.' :: ts) := by
      have hinput : ("." ++ Text.join "." ((n.tablePath d).map d.quote)).toList =
          '.' :: (Text.join "." ((n.tablePath d).map d.quote)).toList := by
        simp [String.toList_append]
      rw [tokens, hinput, Mode.tokens, step_dot hd, ← tokens, hts]
      rfl
    rw [htext, Qualifier.lead_of_not_filled hfilled]
    exact wordless_of_tokens hlead (by simpa [Token.isWordless] using hwordless)

end Dialect

end PortableSql
