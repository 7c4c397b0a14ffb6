import Mathlib.Algebra.Order.BigOperators.Group.List
import Mathlib.Algebra.Order.Group.Int
import Mathlib.Algebra.Order.Monoid.OrderDual
import Mathlib.Algebra.Ring.Int.Defs
import PortableSql.Proofs.Conditions.Matching
import PortableSql.Proofs.Render.Positional

/-!
# Ranges with a wrong number of bounds

A range has places for two bounds, however many it is given. What one range has too many can make up
for what another one lacks: only the sum over the whole chain is checked, when it is rendered.

* `Conditions.Step.Plain`: steps whose texts cannot hold a placeholder.
* **`Conditions.Step.surplus`**, `Conditions.surplus`: the bounds given beyond two.
* `Conditions.Fragment.surplus`: the operands of a fragment beyond its placeholders;
  `Step.surplus_of_added`, `surplus_of_fragments`: it is what the steps give too many.
* **`Conditions.Exceeds`**, `exceeds_of_plain`: a chain has as many operands too many.
* **`Conditions.calls_report_surplus`**: how chains with any number of bounds end.
* `Conditions.calls_cancel_surplus`: two wrong ranges that are written without an error.
-/

namespace PortableSql

namespace Conditions

/-! ## Surpluses -/

/-- The texts of the step hold no sign of a placeholder. -/
def Step.Plain : Step → Prop
  | .add logic _ operator _ => Text.Plain logic ∧ Text.Plain operator
  | .addValue logic _ | .openGroup logic => Text.Plain logic
  | .closeGroup | .closeEmpty => True

instance : DecidablePred Step.Plain
  | .add _ _ _ _ => inferInstanceAs (Decidable (_ ∧ _))
  | .addValue logic _ | .openGroup logic => inferInstanceAs (Decidable (Text.Plain logic))
  | .closeGroup | .closeEmpty => inferInstanceAs (Decidable True)

/-- **How many bounds a step gives beyond the two that a range takes**, negative if it gives
fewer. -/
def Step.surplus : Step → Int
  | .add _ _ operator right => if isRange operator = true then (spread right).length - 2 else 0
  | .addValue _ _ | .openGroup _ | .closeGroup | .closeEmpty => 0

/-- The surplus of all ranges together. -/
def surplus (calls : List Call) : Int := (calls.map fun k => k.meaning.surplus).sum

theorem length_spread_eq_two {v : Value} : (spread v).length = 2 ↔ isPair v = true := by
  refine ⟨fun h => ?_, length_spread_of_isPair⟩
  cases v with
  | sequence items =>
    obtain ⟨a, b, rfl⟩ := List.length_eq_two.mp h
    rfl
  | literal _ | identifier _ | column _ | table _ | expression _ => cases h

/-- A step without a surplus gives every range its two bounds. -/
theorem Step.sound_iff {s : Step} : s.Sound ↔ s.Plain ∧ s.surplus = 0 := by
  cases s with
  | add logic left operator right =>
    rw [Sound, Plain, surplus, and_assoc]
    refine and_congr_right fun _ => and_congr_right fun _ => ?_
    rw [← length_spread_eq_two]
    split_ifs with hrange
    · simp only [hrange, true_implies]
      omega
    · simp [hrange]
  | addValue logic v | openGroup logic => exact (and_iff_left rfl).symm
  | closeGroup | closeEmpty => exact (and_iff_left rfl).symm

/-- **Surpluses in one direction add up**: where no range has too many bounds, or none has too few,
the sum is zero only if every range has two. -/
theorem surplus_eq_zero_of {calls : List Call}
    (h : (∀ k ∈ calls, 0 ≤ k.meaning.surplus) ∨ ∀ k ∈ calls, k.meaning.surplus ≤ 0)
    (hsum : surplus calls = 0) : ∀ k ∈ calls, k.meaning.surplus = 0 := by
  intro k hk
  have hmem : k.meaning.surplus ∈ calls.map fun k => k.meaning.surplus :=
    List.mem_map.mpr ⟨k, hk, rfl⟩
  rcases h with h | h
  · exact List.all_zero_of_le_zero_le_of_sum_eq_zero (List.forall_mem_map.mpr h) hsum hmem
  · -- the same in the dual order
    exact List.all_zero_of_le_zero_le_of_sum_eq_zero (M := Intᵒᵈ) (List.forall_mem_map.mpr h) hsum
      hmem

/-! ## Fragments -/

namespace Fragment

/-- The operands of a fragment beyond its placeholders. -/
def surplus (f : Fragment) : Int := f.operands.length - f.placeholders.length

theorem Matched.surplus_eq_zero {f : Fragment} (h : f.Matched) : f.surplus = 0 := by
  rw [surplus, h, List.length_replicate, Int.sub_self]

theorem Matched.positional {f : Fragment} (h : f.Matched) :
    ∀ p ∈ f.placeholders, p = .positional :=
  fun _ hp => List.eq_of_mem_replicate (h ▸ hp)

/-- A predicate has the placeholders that it would have with two bounds. -/
theorem placeholders_predicate (left : Value) {operator : String} (right : Value)
    (h : Text.Plain operator) : (predicate left operator right).placeholders =
      List.replicate
        (predicateOperands (Text.keyword operator) left (.sequence [left, left])).length
        .positional := by
  have hpair : isPair (.sequence [left, left]) = true := rfl
  have htwo := placeholders_predicateText left h.keyword fun _ => hpair
  simpa only [placeholders, predicate] using htwo

theorem surplus_predicate (left : Value) {operator : String} (right : Value)
    (h : Text.Plain operator) : (predicate left operator right).surplus =
      if isRange operator = true then ((spread right).length : Int) - 2 else 0 := by
  rw [surplus, placeholders_predicate left right h, List.length_replicate]
  unfold predicate predicateOperands isRange
  have hempty : ¬("" = "BETWEEN" ∨ "" = "NOT BETWEEN") := by decide
  by_cases hoperator : Text.keyword operator = ""
  · simp [hoperator]
  · by_cases hrange : Text.keyword operator = "BETWEEN" ∨ Text.keyword operator = "NOT BETWEEN"
    · simp [hoperator, hrange, spread]
      omega
    · simp [hoperator, hrange]

end Fragment

namespace Step

theorem Plain.of_logic {s : Step} (h : s.Plain) {logic : String} (hl : s.logic? = some logic) :
    Text.Plain logic := by
  cases s with
  | add _ _ _ _ =>
    cases hl
    exact h.1
  | addValue _ _ | openGroup _ =>
    cases hl
    exact h
  | closeGroup | closeEmpty => cases hl

/-- The fragment that a step adds has the surplus of the step. -/
theorem surplus_of_added {s : Step} (h : s.Plain) :
    s.surplus = (s.added?.map Fragment.surplus).getD 0 := by
  cases s with
  | add logic left operator right => exact (Fragment.surplus_predicate left right h.2).symm
  | addValue logic v => exact (Fragment.matched_value v).surplus_eq_zero.symm
  | openGroup logic | closeGroup | closeEmpty => rfl

/-- The fragments of a plain step have positional placeholders only, and those without operands have
none. -/
theorem placeholders_of_plain {s : Step} (h : s.Plain) {f : Fragment} (hf : f ∈ s.fragments) :
    (∀ p ∈ f.placeholders, p = .positional) ∧ (f.hasOperands = false → f.surplus = 0) := by
  obtain ⟨logic, hlogic, rfl⟩ | rfl | rfl | ⟨logic, left, operator, right, rfl, rfl⟩ |
    ⟨-, v, -, rfl⟩ := fragments_cases hf
  · have hjoining := Fragment.matched_joining (h.of_logic hlogic)
    exact ⟨hjoining.positional, fun _ => hjoining.surplus_eq_zero⟩
  · exact ⟨Fragment.matched_opening.positional, fun _ => Fragment.matched_opening.surplus_eq_zero⟩
  · exact ⟨Fragment.matched_closing.positional, fun _ => Fragment.matched_closing.surplus_eq_zero⟩
  · rw [Fragment.hasOperands_predicate, Fragment.placeholders_predicate left right h.2]
    exact ⟨fun p hp => List.eq_of_mem_replicate hp, fun h => nomatch h⟩
  · exact ⟨(Fragment.matched_value v).positional, fun h => nomatch h⟩

end Step

theorem surplus_cons (f : Fragment) (fs : List Fragment) :
    ((f :: fs).map Fragment.surplus).sum = f.surplus + (fs.map Fragment.surplus).sum := by
  rw [List.map_cons, List.sum_cons]

/-- The operands of fragments are their placeholders and what is too much. -/
theorem length_operands (fs : List Fragment) :
    ((fs.flatMap Fragment.operands).length : Int) =
      (fs.flatMap Fragment.placeholders).length + (fs.map Fragment.surplus).sum := by
  induction fs with
  | nil => rfl
  | cons f fs ih =>
    rw [List.flatMap_cons, List.flatMap_cons, List.length_append, List.length_append, surplus_cons,
      Fragment.surplus]
    omega

/-- Only fragments with operands count. -/
theorem sum_filter_hasOperands {fs : List Fragment}
    (h : ∀ f ∈ fs, f.hasOperands = false → f.surplus = 0) :
    ((fs.filter Fragment.hasOperands).map Fragment.surplus).sum =
      (fs.map Fragment.surplus).sum := by
  induction fs with
  | nil => rfl
  | cons f fs ih =>
    obtain ⟨hf, hrest⟩ := List.forall_mem_cons.mp h
    cases hoperands : f.hasOperands with
    | true => rw [List.filter_cons_of_pos hoperands, surplus_cons, surplus_cons, ih hrest]
    | false =>
      rw [List.filter_cons_of_neg (by simp [hoperands]), surplus_cons, hf hoperands, ih hrest,
        zero_add]

/-- **What calls add has their surplus.** -/
theorem sum_surplus_added {calls : List Call} (h : ∀ k ∈ calls, k.meaning.Plain) :
    ((added calls).map Fragment.surplus).sum = surplus calls := by
  induction calls with
  | nil => rfl
  | cons k calls ih =>
    obtain ⟨hk, hrest⟩ := List.forall_mem_cons.mp h
    have hadded := Step.surplus_of_added hk
    rw [surplus, List.map_cons, List.sum_cons, hadded, ← surplus, ← ih hrest, added,
      List.filterMap_cons]
    cases k.meaning.added? with
    | none => simp [added]
    | some f => simp [added]

/-! ## Chains -/

/-- **An expression takes what has been added to it by position, and has `n` operands too many.** -/
structure Exceeds (e : Expression) (added : List Fragment) (n : Int) : Prop where
  eq_withParameters : e = .withParameters e.template (added.flatMap Fragment.operands)
  unnamed : ∀ token, .named token ∉ Template.split e.template
  count : ((Template.split e.template).count .positional : Int) + n =
    (added.flatMap Fragment.operands).length

/-- **A chain has as many operands too many as its calls give.** -/
theorem exceeds_of_plain {calls : List Call} (h : ∀ k ∈ calls, k.meaning.Plain) :
    Exceeds (calls.foldl call empty).toExpression (added calls) (surplus calls) := by
  obtain ⟨fs, he, hadded, hmem⟩ := exists_fragments calls
  have hfragments : ∀ f ∈ fs, (∀ p ∈ f.placeholders, p = .positional) ∧
      (f.hasOperands = false → f.surplus = 0) := by
    intro f hf
    obtain rfl | ⟨k, hk, hfk⟩ := hmem f hf
    · exact Step.placeholders_of_plain (s := .closeGroup) trivial List.mem_cons_self
    · exact Step.placeholders_of_plain (h k hk) hfk
  have hplaceholders := placeholders_of_fragments hmem
  have hpositional : Template.placeholders (Fragment.expression fs).template =
      List.replicate (fs.flatMap Fragment.placeholders).length .positional := by
    rw [hplaceholders, List.eq_replicate_iff]
    refine ⟨rfl, fun p hp => ?_⟩
    obtain ⟨f, hf, hpf⟩ := List.mem_flatMap.mp hp
    exact (hfragments f hf).1 p hpf
  obtain ⟨hcount, hunnamed⟩ := Template.placeholders_eq_replicate.mp hpositional
  have hsum : (fs.map Fragment.surplus).sum = surplus calls := by
    rw [← sum_filter_hasOperands fun f hf => (hfragments f hf).2, hadded, sum_surplus_added h]
  rw [he, ← hadded]
  exact {
    eq_withParameters := by rw [Fragment.flatMap_filter_hasOperands]; rfl
    unnamed := hunnamed
    count := by rw [hcount, Fragment.flatMap_filter_hasOperands, length_operands, hsum] }

/-- Every call that adds something adds an operand. -/
theorem added_eq_nil {calls : List Call}
    (h : (added calls).flatMap Fragment.operands = []) : added calls = [] := by
  obtain ⟨fs, -, hadded, -⟩ := exists_fragments calls
  refine List.eq_nil_iff_forall_not_mem.mpr fun f hf => ?_
  have hnone : f.operands = [] := List.flatMap_eq_nil_iff.mp h f hf
  rw [← hadded] at hf
  have hoperands := List.of_mem_filter hf
  rw [Fragment.hasOperands, hnone] at hoperands
  cases hoperands

/-- **How chains with any number of bounds end.** The placeholders and the surplus of all ranges
together make up the operands. So both renderers fail with the first operand that fails before the
operands or the placeholders run out, or else with the mismatch, and they fail just when the sum of
the surpluses is not zero or an operand fails. A wrong range is always reported where no range has
too many bounds, or none has too few. -/
theorem calls_report_surplus (calls : List Call) (h : ∀ k ∈ calls, k.meaning.Plain) :
    let c := calls.foldl call empty
    let operands := (added calls).flatMap Fragment.operands
    let places := (Template.split c.toExpression.template).count .positional
    (places : Int) + surplus calls = operands.length ∧
      c.toValue.FailsCounted c.toExpression.template places operands ∧
      (∀ d, ((∃ e, c.toValue.compile d = .error e) ↔
          surplus calls ≠ 0 ∨ ∃ v ∈ operands, ∃ e, v.compile d = .error e) ∧
        ((∃ e, c.toValue.prepare d = .error e) ↔
          surplus calls ≠ 0 ∨ ∃ v ∈ operands, ∃ e, v.prepare d = .error e)) ∧
      ((∀ k ∈ calls, 0 ≤ k.meaning.surplus) ∨ (∀ k ∈ calls, k.meaning.surplus ≤ 0) →
        (∃ k ∈ calls, ¬k.meaning.Sound) → surplus calls ≠ 0) := by
  intro c operands places
  obtain ⟨hexpression, hunnamed, hexceeds⟩ := exceeds_of_plain h
  have hcount : (places : Int) + surplus calls = operands.length := hexceeds
  have hnil : operands = [] → places = 0 := by
    intro hoperands
    have hsum := sum_surplus_added h
    rw [added_eq_nil hoperands, List.map_nil, List.sum_nil] at hsum
    rw [hoperands, List.length_nil] at hcount
    omega
  have hfails : c.toValue.FailsCounted c.toExpression.template places operands := by
    have hcounted := Value.failsCounted hunnamed hnil
    rwa [← hexpression] at hcounted
  have hdiffer : places ≠ operands.length ↔ surplus calls ≠ 0 := by omega
  refine ⟨hcount, hfails, fun d => ?_, fun hsign hwrong hsum => ?_⟩
  · have hiff := hfails.iff d
    rwa [hdiffer] at hiff
  · obtain ⟨k, hk, hsound⟩ := hwrong
    exact hsound (Step.sound_iff.mpr ⟨h k hk, surplus_eq_zero_of hsign hsum k hk⟩)

/-- A range with one bound that is no sequence, in a group with a range of two bounds: the last
placeholder has no value. -/
theorem calls_report_surplus_missing :
    let column (name : String) : Value := .column (.dotted name)
    let int (n : Int64) : Value := .literal (.int n)
    let calls : List Call := [.step (.openGroup "and"),
      .step (.add "and" (column "a") " between " (int 1)),
      .step (.add "or" (column "b") "not between" (.sequence [int 2, int 3]))]
    let c := calls.foldl call empty
    let e : RenderError := .missingPositional 5 "(? BETWEEN ? AND ? OR ? NOT BETWEEN ? AND ?)"
    (∀ k ∈ calls, k.meaning.Plain) ∧ surplus calls = -1 ∧
      c.toValue.compile (.builtin .mysql) = .error e ∧
      c.toValue.prepare (.builtin .postgres) = .error e ∧
      (∀ k ∈ calls, k.meaning.surplus ≤ 0) ∧ ∃ k ∈ calls, ¬k.meaning.Sound := by
  intro column int calls c e
  have hcalls : ∀ k ∈ calls, k.meaning.Plain := by decide
  have hsign : ∀ k ∈ calls, k.meaning.surplus ≤ 0 := by decide
  have hwrong : ∃ k ∈ calls, ¬k.meaning.Sound := by decide
  obtain ⟨-, hfails, -, hreported⟩ := calls_report_surplus calls hcalls
  have hsum : surplus calls ≠ 0 := hreported (.inr hsign) hwrong
  have hcompile : countedError? (Value.compile (.builtin .mysql)) c.toExpression.template
      ((Template.split c.toExpression.template).count .positional)
      ((added calls).flatMap Fragment.operands) = some e := by decide
  have hprepare : countedError? (Value.prepare (.builtin .postgres)) c.toExpression.template
      ((Template.split c.toExpression.template).count .positional)
      ((added calls).flatMap Fragment.operands) = some e := by decide
  exact ⟨hcalls, by decide, (hfails.compile _ _).mpr hcompile, (hfails.prepare _ _).mpr hprepare,
    hsign, hwrong⟩

/-- **Two wrong ranges can make up for each other**: one has a bound too few and the other one too
many, and the first takes the column of the second for its bound. -/
theorem calls_cancel_surplus :
    let column (name : String) : Value := .column (.dotted name)
    let int (n : Int64) : Value := .literal (.int n)
    let calls : List Call := [.and (column "a") "between" (.sequence [int 1]),
      .and (column "b") "between" (.sequence [int 1, int 2, int 3])]
    let c := calls.foldl call empty
    (∀ k ∈ calls, k.meaning.Plain ∧ ¬k.meaning.Sound) ∧
      c.toValue.compile (.builtin .generic) =
        .ok "\"a\" BETWEEN 1 AND \"b\" AND 1 BETWEEN 2 AND 3" ∧
      c.toValue.prepare (.builtin .generic) =
        .ok ⟨"\"a\" BETWEEN ? AND \"b\" AND ? BETWEEN ? AND ?",
          [.int 1, .int 1, .int 2, .int 3]⟩ := by
  intro column int calls c
  have hwrong : ∀ k ∈ calls, k.meaning.Plain ∧ ¬k.meaning.Sound := by decide
  have htemplate : c.toExpression.template = "? BETWEEN ? AND ? AND ? BETWEEN ? AND ?" := by decide
  have hvalue : c.toValue = .expression ⟨c.toExpression.template,
      [column "a", int 1, column "b", int 1, int 2, int 3], []⟩ := rfl
  rw [hvalue, htemplate]
  exact ⟨hwrong, by decide, rfl⟩

end Conditions

end PortableSql
