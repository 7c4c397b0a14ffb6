import PortableSql.Proofs.Savepoint.Invariant

/-!
# Savepoints without commits

To whoever asks about live savepoints only, commits do not exist: the two stacks answer as the one
stack does that never hears of a commit.

* `SavepointStack.View`, `DualStack.live`: what can be observed of the live savepoints.
* `SavepointStack.run`; `DualStack.Step.baseline?`: the operation on one stack, if there is one.
* `DualStack.Refines.pop_of_full`, `DualStack.full_step_of_none`: a removal takes the top of the
  full stack, and what one stack does not know leaves the full stack as it is.
* **`DualStack.Refines.step_baseline`**, `DualStack.full_run`: the full stack goes the way of the
  one stack, operation by operation.
* **`DualStack.live_run_eq_baseline`**: a run with commits shows the live savepoints of the run
  without them.
-/

namespace PortableSql

/-! ## Observations of live savepoints -/

namespace SavepointStack

/-- What can be observed of live savepoints. -/
structure View where
  names : List String
  size : Nat
  isEmpty : Bool
  position : String → Option Nat

/-- What can be observed of one stack. -/
def view (s : SavepointStack) : View := ⟨s.names, s.size, s.isEmpty, s.position⟩

/-- The stack after operations in order. -/
def run (steps : List Step) : SavepointStack := steps.foldl (fun s a => (s.step a).2) {}

theorem run_concat (steps : List Step) (a : Step) :
    run (steps ++ [a]) = ((run steps).step a).2 := by
  rw [run, List.foldl_append]
  rfl

end SavepointStack

namespace NameStack

/-- A stack with a position of some name is not empty. -/
theorem Indexed.exists_pop {s : NameStack} (h : s.Indexed) {name : String}
    {position : Nat} (hlast : s.lastPosition name = some position) :
    ∃ e rest, s.pop = some (e, rest) := by
  rw [h.lastPosition_eq] at hlast
  cases hentries : s.entries with
  | nil =>
    rw [hentries] at hlast
    cases hlast
  | cons e entries => exact ⟨_, _, pop_eq_some hentries⟩

end NameStack

namespace DualStack

/-- What can be observed of the live savepoints among the two stacks. -/
def live (s : DualStack) : SavepointStack.View := ⟨s.names, s.size, s.isEmpty, s.position⟩

/-- **The operation on one stack**; there is none that commits or asks about commits. -/
def Step.baseline? : Step → Option SavepointStack.Step
  | .push name => some (.push name)
  | .pop => some .pop
  | .position name => some (.position name)
  | .reset => some .reset
  | .commit | .commitTo _ | .uncommittedPosition _ => none

/-- The live savepoints are those of the full stack. -/
theorem live_eq_view {s : DualStack} {t : SavepointStack} (h : s.full = t.stack) :
    s.live = t.view := by
  obtain ⟨full, uncommitted⟩ := s
  cases h
  rfl

/-! ## Operations -/

/-- A removal takes the top of the full stack, whether that is committed or not. -/
theorem Refines.pop_of_full {s : DualStack} {l : Ledger} (h : s.Refines l) :
    match s.full.pop with
    | none => s.pop = .error .underflow
    | some ((name, _), rest) => ∃ u, s.pop = .ok (name, ⟨rest, u⟩) := by
  rw [DualStack.pop]
  rcases s.full.pop with _ | ⟨⟨name, position⟩, rest⟩
  · rfl
  · by_cases hlast : s.uncommitted.lastPosition name = some position
    · obtain ⟨e, u, hu⟩ := h.uncommitted.indexed.exists_pop hlast
      refine ⟨u, ?_⟩
      simp only [if_pos hlast, DualStack.commit, hu]
      rfl
    · exact ⟨s.uncommitted, by simp only [if_neg hlast]⟩

/-- What one stack does not know leaves the full stack as it is. -/
theorem full_step_of_none {a : Step} (h : a.baseline? = none) (s : DualStack) :
    (s.step a).2.full = s.full := by
  cases a with
  | push name => cases h
  | pop => cases h
  | position name => cases h
  | reset => cases h
  | uncommittedPosition name => rfl
  | commit =>
    rw [step, commit]
    rcases s.uncommitted.pop with _ | ⟨⟨name, position⟩, rest⟩ <;> rfl
  | commitTo name =>
    rw [step, commitTo]
    cases s.uncommitted.lastPosition name <;> rfl

/-- **An operation on the full stack is the operation on one stack.** -/
theorem Refines.step_baseline {s : DualStack} {l : Ledger} (h : s.Refines l) {t : SavepointStack}
    (hfull : s.full = t.stack) {a : Step} {b : SavepointStack.Step} (hb : a.baseline? = some b) :
    (s.step a).1 = (t.step b).1 ∧ (s.step a).2.full = (t.step b).2.stack := by
  cases a with
  | push name =>
    cases hb
    rw [DualStack.step, DualStack.push, hfull]
    exact ⟨rfl, rfl⟩
  | pop =>
    cases hb
    have hpop := h.pop_of_full
    rw [DualStack.step, SavepointStack.step, SavepointStack.pop]
    rw [hfull] at hpop
    rcases ht : t.stack.pop with _ | ⟨⟨name, position⟩, rest⟩
    · rw [ht] at hpop
      rw [hpop]
      exact ⟨rfl, hfull⟩
    · rw [ht] at hpop
      obtain ⟨u, hu⟩ := hpop
      rw [hu]
      exact ⟨rfl, rfl⟩
  | position name =>
    cases hb
    exact ⟨congrArg (fun k => Answer.position (NameStack.lastPosition k name)) hfull, hfull⟩
  | reset =>
    cases hb
    exact ⟨rfl, rfl⟩
  | commit => cases hb
  | commitTo name => cases hb
  | uncommittedPosition name => cases hb

/-! ## Runs -/

theorem run_concat (steps : List Step) (a : Step) :
    run (steps ++ [a]) = ((run steps).step a).2 := by
  rw [run, List.foldl_append]
  rfl

/-- The full stack after a run is the one stack after the run without commits. -/
theorem full_run (steps : List Step) :
    (run steps).full = (SavepointStack.run (steps.filterMap Step.baseline?)).stack := by
  induction steps using List.reverseRecOn with
  | nil => rfl
  | append_singleton steps a ih =>
    rw [run_concat, List.filterMap_append]
    cases ha : a.baseline? with
    | none =>
      rw [full_step_of_none ha, ih, List.filterMap_cons_none ha, List.filterMap_nil,
        List.append_nil]
    | some b =>
      obtain ⟨l, h⟩ := exists_refines_run steps
      rw [List.filterMap_cons_some ha, List.filterMap_nil, SavepointStack.run_concat]
      exact (h.step_baseline ih ha).2

/-- **A run with commits shows the live savepoints of the run without them**: after every run the
views of the two are the same, the next operation has the same answer in both, and one that commits
or asks about commits leaves the full stack as it is. -/
theorem live_run_eq_baseline (steps : List Step) :
    let s := run steps
    let t := SavepointStack.run (steps.filterMap Step.baseline?)
    s.live = t.view ∧ (∀ a b, a.baseline? = some b → (s.step a).1 = (t.step b).1) ∧
      ∀ a, a.baseline? = none → (s.step a).2.full = s.full := by
  intro s t
  have hfull : s.full = t.stack := full_run steps
  obtain ⟨l, h⟩ := exists_refines_run steps
  exact ⟨live_eq_view hfull, fun a b hb => (h.step_baseline hfull hb).1,
    fun a ha => full_step_of_none ha s⟩

/-- Three savepoints, two of one name, of which the inner two are committed: the innermost is the
next to go all the same, and a further commit is not seen. -/
theorem live_run_eq_baseline_committed :
    let s := run [.push "a", .push "b", .push "a", .commitTo "b"]
    let t := SavepointStack.run [.push "a", .push "b", .push "a"]
    s.live = t.view ∧ (s.step .pop).1 = .name "a" ∧ (s.step .pop).1 = (t.step .pop).1 ∧
      (s.step .commit).1 = .name "a" ∧ (s.step .commit).2.full = s.full := by
  intro s t
  obtain ⟨hlive, hanswer, hfull⟩ :=
    live_run_eq_baseline [.push "a", .push "b", .push "a", .commitTo "b"]
  exact ⟨hlive, rfl, hanswer .pop .pop rfl, rfl, hfull .commit rfl⟩

end DualStack

end PortableSql
