import PortableSql.Proofs.Conditions.Fragments
import PortableSql.Proofs.Statement.Place
import PortableSql.Proofs.Text.Keyword

/-!
# Chains that match their placeholders

Where connectives and operators hold no sign of a placeholder and ranges have two bounds, every
fragment of a chain has one positional placeholder for each of its operands. So has the whole chain,
and nothing but an operand can fail.

* `Conditions.Step.Sound`: what is asked of a step.
* **`Conditions.Fragment.Matched`**; `Step.matched`: the fragments of sound steps are matched.
* **`Conditions.Matches`**, `matches_of_sound`: an expression matches what has been added to it.
* **`Conditions.calls_match_operands`**: chains of sound calls match their operands, and fail as
  these do, alone and in every statement.
-/

namespace PortableSql

/-- A text without the signs of placeholders has none as a keyword. -/
theorem Text.Plain.keyword {s : String} (h : Plain s) : Plain (keyword s) :=
  ⟨fun hc => h.1 (mem_of_mem_keyword (by decide) hc),
    fun hc => h.2 (mem_of_mem_keyword (by decide) hc)⟩

namespace Conditions

/-! ## Sound steps -/

/-- The operator takes two bounds. -/
def isRange (operator : String) : Bool :=
  Text.keyword operator = "BETWEEN" || Text.keyword operator = "NOT BETWEEN"

/-- The value is a sequence of two items. -/
def isPair : Value → Bool
  | .sequence [_, _] => true
  | _ => false

/-- **The texts of the step hold no sign of a placeholder**, and a range has two bounds. -/
def Step.Sound : Step → Prop
  | .add logic _ operator right => Text.Plain logic ∧ Text.Plain operator ∧
      (isRange operator = true → isPair right = true)
  | .addValue logic _ | .openGroup logic => Text.Plain logic
  | .closeGroup | .closeEmpty => True

instance : DecidablePred Step.Sound
  | .add _ _ _ _ => inferInstanceAs (Decidable (_ ∧ _ ∧ (_ → _)))
  | .addValue logic _ | .openGroup logic => inferInstanceAs (Decidable (Text.Plain logic))
  | .closeGroup | .closeEmpty => inferInstanceAs (Decidable True)

theorem length_spread_of_isPair {v : Value} (h : isPair v = true) : (spread v).length = 2 := by
  unfold isPair at h
  split at h
  · rfl
  · cases h

/-! ## Matched fragments -/

namespace Fragment

/-- **There is a positional placeholder for every operand**, and no other one. -/
def Matched (f : Fragment) : Prop :=
  f.placeholders = List.replicate f.operands.length .positional

theorem matched_opening : opening.Matched := by
  unfold Matched
  decide

theorem matched_closing : closing.Matched := by
  unfold Matched
  decide

theorem matched_value (v : Value) : (value v).Matched := by
  have hmark : Template.placeholders "?" = [.positional] := by decide
  exact hmark

theorem matched_joining {logic : String} (h : Text.Plain logic) : (joining logic).Matched :=
  Template.placeholders_of_plain (.append (.append (by decide) h.keyword) (by decide))

theorem placeholders_infix {operator : String} (h : Text.Plain operator) :
    Template.placeholders ("? " ++ operator ++ " ?") = [.positional, .positional] := by
  have hmiddle : Text.Plain (" " ++ operator ++ " ") :=
    .append (.append (by decide) h) (by decide)
  have hmarks : "? " ++ operator ++ " ?" =
      "" ++ ("?" ++ (" " ++ operator ++ " " ++ ("?" ++ ""))) :=
    String.toList_inj.mp (by simp)
  rw [hmarks, Template.placeholders_text_mark, Template.placeholders_text_mark,
    Template.placeholders_of_plain hmiddle]
  decide

/-- The text of a predicate has a placeholder for each of its operands. -/
theorem placeholders_predicateText (left : Value) {operator : String} {right : Value}
    (h : Text.Plain operator)
    (hright : operator = "BETWEEN" ∨ operator = "NOT BETWEEN" → isPair right = true) :
    Template.placeholders (predicateText operator) =
      List.replicate (predicateOperands operator left right).length .positional := by
  rw [predicateText, predicateOperands]
  by_cases hempty : operator = ""
  · have hmark : Template.placeholders "?" = [.positional] := by decide
    rw [if_pos hempty, if_pos hempty, hmark]
    rfl
  rw [if_neg hempty, if_neg hempty]
  by_cases hin : operator = "IN" ∨ operator = "NOT IN"
  · have hlist : Template.placeholders ("? " ++ operator ++ " (?)") =
        [.positional, .positional] := by
      rcases hin with rfl | rfl <;> decide
    have hrange : ¬ (operator = "BETWEEN" ∨ operator = "NOT BETWEEN") := by
      rcases hin with rfl | rfl <;> decide
    rw [if_pos hin, if_neg hrange, hlist]
    rfl
  rw [if_neg hin]
  by_cases hrange : operator = "BETWEEN" ∨ operator = "NOT BETWEEN"
  · have hbounds : Template.placeholders ("? " ++ operator ++ " ? AND ?") =
        [.positional, .positional, .positional] := by
      rcases hrange with rfl | rfl <;> decide
    rw [if_pos hrange, if_pos hrange, hbounds, List.length_cons,
      length_spread_of_isPair (hright hrange)]
    rfl
  · rw [if_neg hrange, if_neg hrange, placeholders_infix h]
    rfl

theorem matched_predicate (left : Value) {operator : String} {right : Value}
    (h : Text.Plain operator)
    (hright : isRange operator = true → isPair right = true) :
    (predicate left operator right).Matched := by
  simp only [Matched, placeholders, predicate]
  refine placeholders_predicateText left h.keyword fun hrange => hright ?_
  simpa only [isRange, Bool.or_eq_true, decide_eq_true_eq] using hrange

end Fragment

theorem Step.Sound.plain {s : Step} (h : s.Sound) {logic : String} (hl : s.logic? = some logic) :
    Text.Plain logic := by
  cases s with
  | add _ _ _ _ =>
    cases hl
    exact h.1
  | addValue _ _ | openGroup _ =>
    cases hl
    exact h
  | closeGroup => cases hl
  | closeEmpty => cases hl

/-- The fragments of a sound step are matched. -/
theorem Step.matched {s : Step} (h : s.Sound) {f : Fragment} (hf : f ∈ s.fragments) :
    f.Matched := by
  obtain ⟨logic, hlogic, rfl⟩ | rfl | rfl | ⟨logic, left, operator, right, rfl, rfl⟩ |
    ⟨-, v, -, rfl⟩ := fragments_cases hf
  · exact Fragment.matched_joining (h.plain hlogic)
  · exact Fragment.matched_opening
  · exact Fragment.matched_closing
  · obtain ⟨-, hoperator, hright⟩ := h
    exact Fragment.matched_predicate left hoperator hright
  · exact Fragment.matched_value v

/-! ## Chains -/

/-- **An expression matches what has been added to it**: its positional values are the operands in
order, its template has a positional placeholder for each of them and no named one, and both come
from one list of fragments, each with its own placeholders. -/
structure Matches (e : Expression) (added : List Fragment) : Prop where
  positional : e.positional = added.flatMap Fragment.operands
  named : e.named = []
  count : (Template.split e.template).count .positional = e.positional.length
  unnamed : ∀ token, .named token ∉ Template.split e.template
  aligned : ∃ fs : List Fragment, e = Fragment.expression fs ∧
    fs.filter Fragment.hasOperands = added ∧
    Template.placeholders e.template = fs.flatMap Fragment.placeholders ∧ ∀ f ∈ fs, f.Matched

theorem flatMap_placeholders {fs : List Fragment} (h : ∀ f ∈ fs, f.Matched) :
    fs.flatMap Fragment.placeholders =
      List.replicate (fs.flatMap Fragment.operands).length .positional := by
  induction fs with
  | nil => rfl
  | cons f fs ih =>
    obtain ⟨hf, hrest⟩ := List.forall_mem_cons.mp h
    rw [List.flatMap_cons, ih hrest, hf, List.flatMap_cons, List.length_append,
      List.replicate_append_replicate]

/-- **A chain of sound calls matches what they have added.** -/
theorem matches_of_sound {calls : List Call} (h : ∀ k ∈ calls, k.meaning.Sound) :
    Matches (calls.foldl call empty).toExpression (added calls) := by
  obtain ⟨fs, he, hadded, hmem⟩ := exists_fragments calls
  have hmatched : ∀ f ∈ fs, f.Matched := by
    intro f hf
    obtain rfl | ⟨k, hk, hfk⟩ := hmem f hf
    · exact Fragment.matched_closing
    · exact Step.matched (h k hk) hfk
  have hplaceholders := placeholders_of_fragments hmem
  have hcount : Template.placeholders (Fragment.expression fs).template =
      List.replicate (Fragment.expression fs).positional.length .positional :=
    hplaceholders.trans (flatMap_placeholders hmatched)
  obtain ⟨hpositional, hnamed⟩ := Template.placeholders_eq_replicate.mp hcount
  rw [he, ← hadded]
  exact {
    positional := (Fragment.flatMap_filter_hasOperands fs).symm
    named := rfl
    count := hpositional
    unnamed := hnamed
    aligned := ⟨fs, rfl, rfl, hplaceholders, hmatched⟩ }

/-- What matches its operands is written with them as its contents. -/
theorem Matches.writtenAs {e : Expression} {added : List Fragment} (h : Matches e added) :
    ∃ ps, (Value.expression e).WrittenAs ps ∧
      Phrase.contents ps = added.flatMap Fragment.operands := by
  obtain ⟨template, positional, named⟩ := e
  obtain rfl : named = [] := h.named
  rw [← h.positional]
  exact Value.writtenAs_of_placeholders
    (Template.placeholders_eq_replicate.mpr ⟨h.count, h.unnamed⟩)

/-- **The placeholders of a chain stand for its operands.** After sound calls, the expression
matches what the calls have added. So both renderers fail as the first operand that fails, and the
statements that the chain stands in fail as the first of their contents and these operands. -/
theorem calls_match_operands (calls : List Call) (h : ∀ k ∈ calls, k.meaning.Sound) :
    let c := calls.foldl call empty
    let operands := (added calls).flatMap Fragment.operands
    Matches c.toExpression (added calls) ∧ c.toValue.FailsAs operands ∧
      (∀ p : Place, (p.statement (some c)).FailsAs
        (Clause.contents p.before ++ operands ++ Clause.contents p.after)) ∧
      ∀ first before after, (FromClause.mk first (before ++ .on c :: after)).toValue.FailsAs
        (first :: before.map (·.link.2) ++ operands ++ after.map (·.link.2)) := by
  intro c operands
  have hmatches : Matches c.toExpression (added calls) := matches_of_sound h
  obtain ⟨ps, hwritten, hcontents⟩ := hmatches.writtenAs
  have hempty : c.isEmpty = true → Phrase.contents ps = [] := by
    intro hc
    rw [hcontents, ← hmatches.positional]
    exact List.isEmpty_iff.mp (Bool.and_eq_true_iff.mp hc).1
  have hfails := hwritten.failsAs
  have hplace := Place.failsAs hwritten hempty
  have hon := FromClause.failsAs_on hwritten
  rw [hcontents] at hfails
  simp only [hcontents] at hplace hon
  exact ⟨hmatches, hfails, hplace, hon⟩

/-- A group that is taken back, a range with a bound that lacks a value, and a group left open: the
seven placeholders stand for the seven operands, and the bound is all that fails. -/
theorem calls_match_operands_missing_bound :
    let column (name : String) : Value := .column (.dotted name)
    let int (n : Int64) : Value := .literal (.int n)
    let bound : Value := .expression ⟨"? + ?", [int 3], []⟩
    let calls : List Call := [.step (.openGroup "and"), .step .closeEmpty,
      .and (column "a") "=" (int 1), .step (.openGroup " or "),
      .step (.add "and" (column "t.b") "between" (.sequence [int 2, bound])),
      .step (.openGroup "or"), .step .closeEmpty,
      .step (.add "or" (column "c") "not in" (.sequence [int 4, int 5]))]
    let c := calls.foldl call empty
    let e : RenderError := .missingPositional 1 "? + ?"
    (∀ k ∈ calls, k.meaning.Sound) ∧
      c.toExpression.template = "? = ? OR (? BETWEEN ? AND ? OR ? NOT IN (?))" ∧
      (Template.split c.toExpression.template).count .positional = 7 ∧
      c.toValue.compile (.builtin .mysql) = .error e ∧
      c.toValue.prepare (.builtin .postgres) = .error e ∧
      ((Place.delete ⟨column "t", none, [], none⟩).statement (some c)).prepare
        (.builtin .postgres) = .error e := by
  intro column int bound calls c e
  have hcalls : ∀ k ∈ calls, k.meaning.Sound := by decide
  obtain ⟨hmatches, hfails, hplace, -⟩ := calls_match_operands calls hcalls
  exact ⟨hcalls, by decide, hmatches.count, (hfails.compile _ _).mpr (by rfl),
    (hfails.prepare _ _).mpr (by rfl), ((hplace _).prepare _ _).mpr (by rfl)⟩

end Conditions

end PortableSql
