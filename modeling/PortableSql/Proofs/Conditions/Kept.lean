import Mathlib.Data.List.Flatten
import PortableSql.Proofs.Conditions.Fragments
import PortableSql.Proofs.Statement.Place

/-!
# Conditions are never lost

A chain that something has been added to is not empty, whatever else has been called, and statements
write it with everything that has been added. A chain is empty again if nothing has been added and
every group that was opened has been taken back, and then statements go without it.

* **`Conditions.Keeps`**, `Conditions.keeps`: an expression holds what has been added to it.
* `Conditions.isEmpty_eq_false_of_added`: with something added a chain is not empty.
* **`Conditions.takenBack`**: every open group is taken back; `Outline.blank`: frames without items.
* `Outline.foldl_of_takenBack`, `Conditions.isEmpty_of_takenBack`: without additions nothing is left
  then.
* **`Conditions.calls_keep_filter`**: when conditions are written, and when they are left out.
-/

namespace PortableSql

namespace Conditions

/-! ## With additions -/

/-- **An expression holds what has been added to it**: all operands in order, in a template that is
put together from fragments of which those with operands are the added ones, so that it has their
placeholders in this order. -/
structure Keeps (e : Expression) (added : List Fragment) : Prop where
  operands : e.positional = added.flatMap Fragment.operands
  fragments : ∃ fs, e = Fragment.expression fs ∧ fs.filter Fragment.hasOperands = added
  placeholders :
    (added.flatMap Fragment.placeholders).Sublist (Template.placeholders e.template)

/-- A chain holds what calls have added to it. -/
theorem keeps (calls : List Call) :
    Keeps (calls.foldl call empty).toExpression (added calls) := by
  obtain ⟨fs, he, hadded, hmem⟩ := exists_fragments calls
  rw [he, ← hadded]
  exact {
    operands := (Fragment.flatMap_filter_hasOperands fs).symm
    fragments := ⟨fs, rfl, rfl⟩
    placeholders := by
      rw [placeholders_of_fragments hmem]
      exact List.filter_sublist.flatMap _ }

theorem isEmpty_eq_false_of_added {calls : List Call} (h : added calls ≠ []) :
    (calls.foldl call empty).isEmpty = false := by
  obtain ⟨fs, he, hadded, -⟩ := exists_fragments calls
  by_contra hempty
  rw [Bool.not_eq_false, isEmpty, Bool.and_eq_true] at hempty
  have hoperands : fs.flatMap Fragment.operands = [] :=
    (congrArg Expression.positional he).symm.trans (List.isEmpty_iff.mp hempty.1)
  -- an added fragment has operands, and these are operands of the chain
  obtain ⟨f, hf⟩ := List.exists_mem_of_ne_nil _ (hadded ▸ h)
  obtain ⟨hmem, hf⟩ := List.mem_filter.mp hf
  rw [Fragment.hasOperands, List.flatMap_eq_nil_iff.mp hoperands f hmem] at hf
  cases hf

/-! ## Without additions -/

/-- **Every open group is closed as an empty one**: `depth` groups that are open already, and those
that the steps open. A group that is closed otherwise is not taken back; without an open group,
closing does nothing. -/
def takenBack : Nat → List Step → Bool
  | depth, [] => depth = 0
  | depth, .openGroup _ :: steps => takenBack (depth + 1) steps
  | depth, .closeEmpty :: steps => takenBack (depth - 1) steps
  | depth, .closeGroup :: steps => depth = 0 && takenBack 0 steps
  | depth, .add _ _ _ _ :: steps | depth, .addValue _ _ :: steps => takenBack depth steps

namespace Outline

/-- No frame has an item. -/
def blank : Outline → Bool
  | .chain items => items.isEmpty
  | .inGroup outer _ items => items.isEmpty && outer.blank

/-- If nothing is added and every open group is taken back, nothing is left of blank frames. -/
theorem foldl_of_takenBack {steps : List Step} (hadded : ∀ s ∈ steps, s.added? = none)
    {o : Outline} (hblank : o.blank = true) (h : takenBack o.depth steps = true) :
    steps.foldl step o = .chain [] := by
  -- along the steps: the frames stay blank, and there are as many as `takenBack` counts
  induction steps generalizing o with
  | nil =>
    cases o with
    | chain items => exact congrArg Outline.chain (List.isEmpty_iff.mp hblank)
    | inGroup outer logic items => cases h
  | cons s steps ih =>
    obtain ⟨hs, hrest⟩ := List.forall_mem_cons.mp hadded
    rw [List.foldl_cons]
    cases s with
    | add logic left operator right => cases hs
    | addValue logic v => cases hs
    | openGroup logic => exact ih hrest hblank h
    | closeGroup =>
      cases o with
      | chain items => exact ih hrest hblank h
      | inGroup outer logic items => cases h
    | closeEmpty =>
      cases o with
      | chain items => exact ih hrest hblank h
      | inGroup outer logic items =>
        obtain ⟨hitems, houter⟩ := Bool.and_eq_true_iff.mp hblank
        obtain rfl := List.isEmpty_iff.mp hitems
        exact ih hrest houter h

end Outline

theorem isEmpty_of_takenBack {calls : List Call} (hadded : added calls = [])
    (h : takenBack 0 (calls.map Call.meaning) = true) :
    (calls.foldl call empty).isEmpty = true := by
  have hnone : ∀ s ∈ calls.map Call.meaning, s.added? = none := by
    intro s hs
    obtain ⟨k, hk, rfl⟩ := List.mem_map.mp hs
    exact List.filterMap_eq_nil_iff.mp hadded k hk
  rw [foldl_call, Outline.run_written, Outline.isEmpty_written]
  exact Outline.foldl_of_takenBack (o := .chain []) hnone rfl h

/-- **Conditions are written just when something has been added.** After calls with additions,
however groups are opened, closed and taken back among them, a chain is not empty and holds all
additions in their order; a statement has it in a clause of its own and writes it after the keyword.
After calls without additions, where every group that they open is taken back, a chain is empty and
a statement is the one without conditions. -/
theorem calls_keep_filter :
    (∀ calls : List Call, added calls ≠ [] →
      let c := calls.foldl call empty
      c.isEmpty = false ∧ Keeps c.toExpression (added calls) ∧ ∀ p : Place,
        p.statement (some c) = .expression (Clause.assemble
          (p.before ++ .slot p.keyword p.slot c.toValue :: p.after)) ∧
        (p.statement (some c)).WrittenAs (p.before.flatMap Clause.phrases ++
          [.keyword p.keyword] ++ .content c.toValue :: p.after.flatMap Clause.phrases)) ∧
    ∀ calls : List Call, added calls = [] → takenBack 0 (calls.map Call.meaning) = true →
      let c := calls.foldl call empty
      c.isEmpty = true ∧ ∀ p : Place,
        p.statement (some c) = .expression (Clause.assemble (p.before ++ p.after)) ∧
        p.statement (some c) = p.statement none := by
  refine ⟨fun calls h => ?_, fun calls hadded h => ?_⟩
  · have hempty := isEmpty_eq_false_of_added h
    refine ⟨hempty, keeps calls, fun p => ⟨?_, p.writtenAs_of_not_isEmpty hempty⟩⟩
    rw [Place.statement_eq, Place.clauses_eq, Clause.conditions, hempty, if_neg Bool.false_ne_true,
      List.append_assoc, List.singleton_append]
  · have hempty := isEmpty_of_takenBack hadded h
    have hclauses (p : Place) :
        p.clauses (some (calls.foldl call empty)) = p.before ++ p.after := by
      rw [Place.clauses_eq, Clause.conditions, if_pos hempty, List.append_nil]
    refine ⟨hempty, fun p => ⟨?_, ?_⟩⟩
    · rw [Place.statement_eq, hclauses]
    · rw [Place.statement_eq, Place.statement_eq, hclauses, Place.clauses_eq, Clause.conditions,
        List.append_nil]

/-- Groups taken back before, inside and after the one that holds a predicate, whose operator holds
a question mark of its own; and calls that take back all they open, with closings to no effect. -/
theorem calls_keep_filter_taken_back :
    let column (name : String) : Value := .column (.dotted name)
    let int (n : Int64) : Value := .literal (.int n)
    let kept : List Call := [.step (.openGroup "and"), .step .closeEmpty,
      .step (.openGroup "or"), .step (.openGroup "and"), .step .closeEmpty,
      .or (column "a") "?|" (int 1), .step (.openGroup "and"), .step .closeEmpty, .step .closeEmpty,
      .step (.openGroup "or"), .step .closeEmpty, .andValue (column "b"), .step .closeEmpty]
    let undone : List Call := [.step .closeGroup, .step (.openGroup "and"),
      .step (.openGroup "or"), .step .closeEmpty, .step (.openGroup "or"), .step .closeEmpty,
      .step .closeEmpty, .step .closeGroup, .step .closeEmpty]
    let p : Place := .delete ⟨.table (.dotted "t"), none, [], some 5⟩
    let c := kept.foldl call empty
    let c' := undone.foldl call empty
    added kept ≠ [] ∧ c.isEmpty = false ∧ c.toExpression.template = "(? ?| ?) AND ?" ∧
      p.statement (some c) = .expression (Clause.assemble
        [.text "DELETE FROM", .slot " " "table" (.table (.dotted "t")),
          .slot " WHERE " "where" c.toValue, .slot " LIMIT " "limit" (int 5)]) ∧
      added undone = [] ∧ takenBack 0 (undone.map Call.meaning) = true ∧ c'.isEmpty = true ∧
      p.statement (some c') = .expression (Clause.assemble
        [.text "DELETE FROM", .slot " " "table" (.table (.dotted "t")),
          .slot " LIMIT " "limit" (int 5)]) := by
  intro column int kept undone p c c'
  have hkept : added kept ≠ [] := List.cons_ne_nil _ _
  have hundone : added undone = [] := rfl
  have htaken : takenBack 0 (undone.map Call.meaning) = true := by decide
  obtain ⟨hc, -, hp⟩ := calls_keep_filter.1 kept hkept
  obtain ⟨hc', hp'⟩ := calls_keep_filter.2 undone hundone htaken
  exact ⟨hkept, hc, by decide, (hp p).1, hundone, htaken, hc', (hp' p).1⟩

end Conditions

end PortableSql
