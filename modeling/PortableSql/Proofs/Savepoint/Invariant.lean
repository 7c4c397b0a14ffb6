import PortableSql.Proofs.Savepoint.Refinement

/-!
# What holds of the stacks after every run

* `DualStack.run`: the stacks after operations in order; **`DualStack.exists_refines_run`**: they
  are the stacks of a ledger.
* `NameStack.WellIndexed`: the index lists the positions of every name, and nothing else.
* **`DualStack.Invariant`**: how the two stacks are related.
* **`DualStack.invariant_run`**: they are so related after every run.
-/

namespace PortableSql

/-! ## Marks in order -/

namespace Ledger

variable (p : Entry → Bool) (l : Ledger)

theorem marks_sublist_marks_all : (marks p l).Sublist (marks (fun _ => true) l) := by
  refine List.Sublist.map _ ?_
  rw [List.filter_eq_self.mpr fun _ _ => rfl]
  exact List.filter_sublist

theorem map_snd_marks_all : (marks (fun _ => true) l).map (·.2) = List.range l.length := by
  rw [marks_all, List.zipIdx_map_snd, List.length_map, List.range_eq_range']

/-- The indices of marks increase. -/
theorem pairwise_lt_marks : ((marks p l).map (·.2)).Pairwise (· < ·) := by
  have hall : ((marks (fun _ => true) l).map (·.2)).Pairwise (· < ·) := by
    rw [map_snd_marks_all]
    exact List.pairwise_lt_range
  exact hall.sublist ((marks_sublist_marks_all p l).map _)

end Ledger

/-! ## Indexes -/

namespace NameStack

/-- **The index says where every name stands**: it lists the positions of the entries with the name,
in increasing order, and has no list for a name without entries. -/
structure WellIndexed (s : NameStack) : Prop where
  positions : ∀ name,
    s.positions name = (s.entries.reverse.filter fun e => e.1 = name).map (·.2)
  increasing : ∀ name, (s.positions name).Pairwise (· < ·)
  mem : ∀ name, name ∈ s.index ↔ name ∈ s.names

theorem positionsOf_eq_nil {entries : List (String × Nat)} {name : String} :
    positionsOf entries name = [] ↔ name ∉ entries.map (·.1) := by
  rw [positionsOf, List.map_eq_nil_iff, List.filter_eq_nil_iff, List.mem_map]
  simp only [decide_eq_true_eq, not_exists, not_and]

/-- The index of a stack whose positions increase towards the top. -/
theorem Indexed.wellIndexed {s : NameStack} (h : s.Indexed)
    (hs : (s.entries.reverse.map (·.2)).Pairwise (· < ·)) : s.WellIndexed := by
  have hpositions (name : String) :
      s.positions name = (s.entries.reverse.filter fun e => e.1 = name).map (·.2) := by
    rw [h.positions_eq, positionsOf, ← List.map_reverse, ← List.filter_reverse]
  refine ⟨hpositions, fun name => ?_, fun name => ?_⟩
  · rw [hpositions]
    exact hs.sublist (List.filter_sublist.map _)
  · have hnames : name ∈ s.names ↔ positionsOf s.entries name ≠ [] := by
      rw [Ne, positionsOf_eq_nil, not_not, names, List.map_reverse, List.mem_reverse]
    rw [hnames, Std.ExtTreeMap.mem_iff_isSome_getElem?, h name]
    cases positionsOf s.entries name <;> simp [PositionIndex.slot]

theorem pop_eq_some {s : NameStack} {e : String × Nat} {rest : List (String × Nat)}
    (h : s.entries = e :: rest) : s.pop = some (e, ⟨rest, s.index.dropLast e.1⟩) := by
  simp only [pop, h]

end NameStack

namespace DualStack

/-- The stacks after operations in order. -/
def run (steps : List Step) : DualStack := steps.foldl (fun s a => (s.step a).2) {}

/-- **The stacks after a run are the stacks of a ledger.** -/
theorem exists_refines_run (steps : List Step) : ∃ l, (run steps).Refines l := by
  have hfold : ∀ {s : DualStack} {l : Ledger}, s.Refines l →
      ∃ k, (steps.foldl (fun s a => (s.step a).2) s).Refines k := by
    induction steps with
    | nil => exact fun h => ⟨_, h⟩
    | cons a steps ih => exact fun h => ih (h.step a).2
  exact hfold Refines.empty

/-- **How the two stacks are related.** -/
structure Invariant (s : DualStack) : Prop where
  /-- The position of a live savepoint is its depth. -/
  position : ∀ (i : Nat) (e : String × Nat), s.full.entries.reverse[i]? = some e → e.2 = i
  /-- The uncommitted savepoints are some of the live ones, in the same order. -/
  sublist : s.uncommitted.entries.reverse.Sublist s.full.entries.reverse
  increasing : (s.uncommitted.entries.reverse.map (·.2)).Pairwise (· < ·)
  full : s.full.WellIndexed
  uncommitted : s.uncommitted.WellIndexed
  positions : ∀ name, (s.uncommittedPositions name).Sublist (s.fullPositions name)
  /-- Removing a savepoint commits no other one. -/
  pop : ∀ (name : String) (position : Nat) (rest : List (String × Nat)),
    s.full.entries = (name, position) :: rest →
      ∃ t, s.pop = .ok (name, t) ∧ t.full.entries = rest ∧
        if s.uncommitted.lastPosition name = some position then
          s.uncommitted.entries = (name, position) :: t.uncommitted.entries
        else t.uncommitted = s.uncommitted

namespace Refines

open Ledger

variable {s : DualStack} {l : Ledger}

/-- What is taken from the uncommitted stack along with the top of the full one is its top, which
is the same entry. -/
theorem pop_entries (h : s.Refines l) {name : String} {position : Nat}
    {rest : List (String × Nat)} (hs : s.full.entries = (name, position) :: rest) :
    ∃ t, s.pop = .ok (name, t) ∧ t.full.entries = rest ∧
      if s.uncommitted.lastPosition name = some position then
        s.uncommitted.entries = (name, position) :: t.uncommitted.entries
      else t.uncommitted = s.uncommitted := by
  have hfull := h.full.entries
  cases l using List.reverseRecOn with
  | nil =>
    rw [hs] at hfull
    cases hfull
  | append_singleton l e =>
    rw [marks_concat, if_pos rfl, List.reverse_concat, hs, List.cons.injEq, Prod.mk.injEq] at hfull
    obtain ⟨⟨rfl, rfl⟩, -⟩ := hfull
    have hpop := NameStack.pop_eq_some hs
    by_cases hlast : s.uncommitted.lastPosition e.name = some l.length
    · obtain ⟨u, hu⟩ : ∃ u, s.uncommitted.entries = (e.name, l.length) :: u := by
        rw [h.uncommitted.entries, marks_concat, if_pos (h.lastPosition_concat.mp hlast),
          List.reverse_concat]
        exact ⟨_, rfl⟩
      refine ⟨⟨⟨rest, s.full.index.dropLast e.name⟩, ⟨u, s.uncommitted.index.dropLast e.name⟩⟩,
        ?_, rfl, ?_⟩
      · simp only [DualStack.pop, hpop, if_pos hlast, DualStack.commit, NameStack.pop_eq_some hu]
        rfl
      · rw [if_pos hlast, hu]
    · refine ⟨⟨⟨rest, s.full.index.dropLast e.name⟩, s.uncommitted⟩, ?_, rfl, ?_⟩
      · simp only [DualStack.pop, hpop, if_neg hlast]
      · rw [if_neg hlast]

theorem invariant (h : s.Refines l) : s.Invariant := by
  have hfull : s.full.entries.reverse = marks (fun _ => true) l := by
    rw [h.full.entries, List.reverse_reverse]
  have huncommitted : s.uncommitted.entries.reverse = marks (·.isOpen) l := by
    rw [h.uncommitted.entries, List.reverse_reverse]
  have hsublist : s.uncommitted.entries.reverse.Sublist s.full.entries.reverse := by
    rw [hfull, huncommitted]
    exact marks_sublist_marks_all _ l
  have hf : s.full.WellIndexed := h.full.indexed.wellIndexed <| by
    rw [hfull]
    exact pairwise_lt_marks _ l
  have hincreasing : (s.uncommitted.entries.reverse.map (·.2)).Pairwise (· < ·) := by
    rw [huncommitted]
    exact pairwise_lt_marks _ l
  have hu : s.uncommitted.WellIndexed := h.uncommitted.indexed.wellIndexed hincreasing
  refine ⟨fun i e he => ?_, hsublist, hincreasing, hf, hu, fun name => ?_,
    fun _ _ _ hs => h.pop_entries hs⟩
  · have hi := congrArg (Option.map (·.2)) he
    rw [hfull, ← List.getElem?_map, map_snd_marks_all] at hi
    obtain ⟨hlt, hi⟩ := List.getElem?_eq_some_iff.mp hi
    exact hi.symm.trans (List.getElem_range _)
  · rw [uncommittedPositions, fullPositions, hu.positions, hf.positions]
    exact (hsublist.filter _).map _

end Refines

/-- **The two stacks are related as they should be after every run.** -/
theorem invariant_run (steps : List Step) : (run steps).Invariant := by
  obtain ⟨l, h⟩ := exists_refines_run steps
  exact h.invariant

end DualStack

end PortableSql
