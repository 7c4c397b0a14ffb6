import PortableSql.Proofs.Savepoint.Invariant

/-!
# Brackets of savepoints

A transaction sets a savepoint, runs inside of it and removes it at the end. Further savepoints of
any names, set and removed and committed on the way, leave no trace outside.

* `DualStack.Inside`, **`DualStack.StaysInside`**: an operation and a run that leave the savepoints
  before a position alone, and the one at the position alive.
* `DualStack.Refines.unique`: a ledger determines its stacks, indexes included.
* `Ledger.step_of_commits`, `DualStack.Refines.commits_inside`: commits close the last entries of a
  ledger, from one on that they find open.
* **`DualStack.Refines.step_inside`**, `DualStack.Refines.after_inside`: the entries outside stay as
  they are, and the entry of the bracket stays in its place.
* **`DualStack.bracket_restores`**: the end of a bracket restores the stacks from before it.
-/

namespace PortableSql

/-! ## Stacks of one ledger -/

/-- Entries determine an index that says where every name stands. -/
theorem NameStack.Indexed.unique {s t : NameStack} (hs : s.Indexed) (ht : t.Indexed)
    (h : s.entries = t.entries) : s = t := by
  have hindex : s.index = t.index := by
    refine Std.ExtTreeMap.ext_getElem? fun name => ?_
    rw [hs name, ht name, h]
  obtain ⟨entries, index⟩ := s
  cases h
  cases hindex
  rfl

namespace DualStack

/-- **A ledger determines its stacks.** -/
theorem Refines.unique {s t : DualStack} {l : Ledger} (hs : s.Refines l) (ht : t.Refines l) :
    s = t := by
  have hfull : s.full = t.full := hs.full.indexed.unique ht.full.indexed <| by
    rw [hs.full.entries, ht.full.entries]
  have hopen : s.uncommitted = t.uncommitted :=
    hs.uncommitted.indexed.unique ht.uncommitted.indexed <| by
      rw [hs.uncommitted.entries, ht.uncommitted.entries]
  obtain ⟨full, uncommitted⟩ := s
  cases hfull
  cases hopen
  rfl

/-! ## Runs inside a bracket -/

/-- The stacks after further operations. -/
def after (s : DualStack) (steps : List Step) : DualStack := steps.foldl (fun s a => (s.step a).2) s

/-- The operation sets a savepoint. -/
def Step.isPush : Step → Bool
  | .push _ => true
  | _ => false

/-- The operation commits, if at all, savepoints from position `p` on. -/
def CommitsFrom (p : Nat) (s : DualStack) (a : Step) : Prop :=
  ∀ e ∈ s.uncommitted.entries, e ∉ (s.step a).2.uncommitted.entries → p ≤ e.2

/-- **The operation stays inside the bracket** whose savepoint has position `p`: it does not remove
that savepoint, commits none before it, and is no reset. -/
def Inside (p : Nat) (s : DualStack) : Step → Prop
  | .pop => ∀ e ∈ s.full.top?, e.2 ≠ p
  | .commit => CommitsFrom p s .commit
  | .commitTo name => CommitsFrom p s (.commitTo name)
  | .reset => False
  | .push _ | .position _ | .uncommittedPosition _ => True

/-- **Every operation of the run stays inside the bracket**, in the state that it finds. -/
def StaysInside (p : Nat) : DualStack → List Step → Prop
  | _, [] => True
  | s, a :: steps => Inside p s a ∧ StaysInside p (s.step a).2 steps

instance (p : Nat) (s : DualStack) (a : Step) : Decidable (CommitsFrom p s a) :=
  inferInstanceAs (Decidable (∀ e ∈ s.uncommitted.entries,
    e ∉ (s.step a).2.uncommitted.entries → p ≤ e.2))

instance (p : Nat) (s : DualStack) : (a : Step) → Decidable (Inside p s a)
  | .pop => inferInstanceAs (Decidable (∀ e ∈ s.full.top?, e.2 ≠ p))
  | .commit => inferInstanceAs (Decidable (CommitsFrom p s .commit))
  | .commitTo name => inferInstanceAs (Decidable (CommitsFrom p s (.commitTo name)))
  | .reset => inferInstanceAs (Decidable False)
  | .push _ | .position _ | .uncommittedPosition _ => inferInstanceAs (Decidable True)

instance decidableStaysInside (p : Nat) :
    (s : DualStack) → (steps : List Step) → Decidable (StaysInside p s steps)
  | _, [] => inferInstanceAs (Decidable True)
  | s, a :: steps =>
    have := decidableStaysInside p (s.step a).2 steps
    inferInstanceAs (Decidable (Inside p s a ∧ StaysInside p (s.step a).2 steps))

end DualStack

/-! ## Commits on a ledger -/

namespace Ledger

/-- What is closed has no mark among the open entries. -/
theorem not_mem_marks_of_closed {a b : Ledger} (hb : ∀ x ∈ b, x.isOpen = false) (name : String) :
    (name, a.length) ∉ marks (·.isOpen) (a ++ b) := by
  rw [marks_append_of_forall _ a hb]
  intro h
  have hlt := (le_of_mem_marksFrom _ a h).2
  omega

/-- **Commits close the last entries of a ledger**, from one on that they find open, or change
nothing. -/
theorem step_of_commits {a : DualStack.Step} (ha : a = .commit ∨ ∃ name, a = .commitTo name)
    (l : Ledger) :
    (l.step a).2 = l ∨ ∃ below above closed : Ledger, l = below ++ above ∧
      (l.step a).2 = below ++ closed ∧ closed.map (·.name) = above.map (·.name) ∧
      (∀ x ∈ closed, x.isOpen = false) ∧ ∃ name, (name, below.length) ∈ marks (·.isOpen) l := by
  rcases ha with rfl | ⟨name, rfl⟩
  · cases hl : l.last? (·.isOpen) with
    | none =>
      rw [Ledger.step, hl]
      exact .inl rfl
    | some m =>
      obtain ⟨name, k⟩ := m
      obtain ⟨below, e, b, rfl, rfl, -, -, hb⟩ := exists_split _ hl
      refine .inr ⟨below, e :: b, e.close :: b, rfl, ?_, rfl,
        List.forall_mem_cons.mpr ⟨rfl, hb⟩, name, List.mem_of_getLast? hl⟩
      rw [Ledger.step, hl]
      exact modify_append below b e Entry.close
  · cases hl : l.last? (Entry.isOpenNamed name) with
    | none =>
      rw [Ledger.step, hl]
      exact .inl rfl
    | some m =>
      obtain ⟨n, k⟩ := m
      obtain ⟨below, e, b, rfl, rfl, -, he, -⟩ := exists_split _ hl
      refine .inr ⟨below, e :: b, (e :: b).map Entry.close, rfl, ?_, ?_, ?_, e.name, ?_⟩
      · rw [Ledger.step, hl]
        simp only [List.take_left, List.drop_left]
      · rw [List.map_map]
        rfl
      · intro x hx
        obtain ⟨y, -, rfl⟩ := List.mem_map.mp hx
        rfl
      · have hopen : e.isOpen = true := (Bool.and_eq_true_iff.mp he).1
        rw [marks_append, marksFrom_cons, if_pos hopen]
        exact List.mem_append_right _ List.mem_cons_self

end Ledger

/-! ## What stays outside -/

namespace DualStack.Refines

open Ledger

variable {s : DualStack} {outer inner : Ledger} {e : Entry}

/-- A commit inside a bracket changes nothing outside and removes nothing. -/
theorem commits_inside (h : s.Refines (outer ++ inner)) {a : Step}
    (ha : a = .commit ∨ ∃ name, a = .commitTo name) (hin : CommitsFrom outer.length s a) :
    ∃ inner', (s.step a).2.Refines (outer ++ inner') ∧
      inner'.map (·.name) = inner.map (·.name) := by
  have hstep := (h.step a).2
  rcases step_of_commits ha (outer ++ inner) with hl | ⟨below, above, closed, hl, hl', hnames,
    hclosed, name, hmark⟩
  · rw [hl] at hstep
    exact ⟨inner, hstep, rfl⟩
  · rw [hl'] at hstep
    -- the first entry that is closed was open before and is so no more
    have hle : outer.length ≤ below.length := by
      refine hin (name, below.length) ?_ ?_
      · rw [h.uncommitted.entries]
        exact List.mem_reverse.mpr hmark
      · rw [hstep.uncommitted.entries, List.mem_reverse]
        exact not_mem_marks_of_closed hclosed name
    obtain ⟨mid, rfl⟩ := List.prefix_of_prefix_length_le (List.prefix_append outer inner)
      ⟨above, hl.symm⟩ hle
    obtain rfl : inner = mid ++ above :=
      List.append_cancel_left (hl.trans (List.append_assoc outer mid above))
    refine ⟨mid ++ closed, ?_, ?_⟩
    · rwa [← List.append_assoc]
    · rw [List.map_append, List.map_append, hnames]

/-- **An operation inside a bracket** leaves the entries outside as they are and the entry of the
bracket in its place. -/
theorem step_inside (h : s.Refines (outer ++ e :: inner)) {a : Step}
    (hin : Inside outer.length s a) :
    ∃ e' inner', (s.step a).2.Refines (outer ++ e' :: inner') ∧ e'.name = e.name ∧
      inner'.length + [a].count .pop = inner.length + [a].countP Step.isPush := by
  have hstep := (h.step a).2
  have hcommits (ha : a = .commit ∨ ∃ name, a = .commitTo name)
      (hfrom : CommitsFrom outer.length s a) : ∃ e' inner',
      (s.step a).2.Refines (outer ++ e' :: inner') ∧ e'.name = e.name ∧
        inner'.length = inner.length := by
    obtain ⟨inner', h', hnames⟩ := h.commits_inside ha hfrom
    obtain ⟨e', tail, rfl, hname, htail⟩ := List.map_eq_cons_iff.mp hnames
    refine ⟨e', tail, h', hname, ?_⟩
    simpa using congrArg List.length htail
  cases a with
  | push name =>
    rw [Ledger.step, List.append_assoc, List.cons_append] at hstep
    exact ⟨e, inner ++ [⟨name, true⟩], hstep, rfl, by simp [Step.isPush]⟩
  | pop =>
    cases inner using List.reverseRecOn with
    | nil =>
      -- the entry on top would be that of the bracket
      refine absurd rfl (hin (e.name, outer.length) ?_)
      rw [NameStack.top?, h.full.entries, marks_concat, if_pos rfl, List.reverse_concat]
      rfl
    | append_singleton inner x =>
      rw [← List.cons_append, ← List.append_assoc, Ledger.step, List.getLast?_concat,
        List.dropLast_concat] at hstep
      exact ⟨e, inner, hstep, rfl, by simp [Step.isPush]⟩
  | commit => simpa [Step.isPush] using hcommits (.inl rfl) hin
  | commitTo name => simpa [Step.isPush] using hcommits (.inr ⟨name, rfl⟩) hin
  | position name => exact ⟨e, inner, hstep, rfl, by simp [Step.isPush]⟩
  | uncommittedPosition name => exact ⟨e, inner, hstep, rfl, by simp [Step.isPush]⟩
  | reset => exact hin.elim

/-- A run inside a bracket does so too. -/
theorem after_inside {steps : List Step} (h : s.Refines (outer ++ e :: inner))
    (hin : StaysInside outer.length s steps) :
    ∃ e' inner', (s.after steps).Refines (outer ++ e' :: inner') ∧ e'.name = e.name ∧
      inner'.length + steps.count .pop = inner.length + steps.countP Step.isPush := by
  induction steps generalizing s e inner with
  | nil => exact ⟨e, inner, h, rfl, rfl⟩
  | cons a steps ih =>
    obtain ⟨ha, hrest⟩ := hin
    obtain ⟨e₁, inner₁, h₁, hname₁, hlength₁⟩ := h.step_inside ha
    obtain ⟨e₂, inner₂, h₂, hname₂, hlength₂⟩ := ih h₁ hrest
    refine ⟨e₂, inner₂, h₂, hname₂.trans hname₁, ?_⟩
    rw [← List.singleton_append, List.count_append, List.countP_append]
    omega

end DualStack.Refines

namespace DualStack

open Ledger

/-- **The end of a bracket restores the stacks from before it.** After any run, a savepoint is set,
and operations follow that stay inside its bracket and remove as many savepoints as they set. The
removal after them takes the savepoint of the bracket, and leaves both stacks with their indexes as
they were before it was set. -/
theorem bracket_restores (before steps : List Step) (name : String)
    (hin : StaysInside ((run before).push name).1 ((run before).push name).2 steps)
    (hcount : steps.count .pop = steps.countP Step.isPush) :
    (((run before).push name).2.after steps).step .pop = (.name name, run before) := by
  obtain ⟨l, h⟩ := exists_refines_run before
  obtain ⟨hposition, hpush⟩ := h.push name
  rw [hposition] at hin
  obtain ⟨e, inner, hafter, hname, hlength⟩ := hpush.after_inside hin
  obtain rfl : inner = [] := List.length_eq_zero_iff.mp (by simpa [hcount] using hlength)
  obtain ⟨t, hpop, ht⟩ := hafter.pop
  obtain rfl : t = run before := ht.unique h
  rw [DualStack.step, hpop, hname]
  rfl

/-- Inside of the bracket its name and that of an outer savepoint are used again, positions too, and
commits reach the savepoint of the bracket itself. -/
theorem bracket_restores_committed :
    let before : List Step := [.push "a", .push "b", .commit]
    let steps : List Step := [.push "b", .push "a", .commitTo "b", .pop, .push "a", .commit,
      .commit, .pop, .pop]
    StaysInside 2 (run (before ++ [.push "a"])) steps ∧
      steps.count .pop = steps.countP Step.isPush ∧
      ((run (before ++ [.push "a"])).after steps).step .pop = (.name "a", run before) := by
  intro before steps
  have hin : StaysInside 2 (run (before ++ [.push "a"])) steps := by decide
  exact ⟨hin, rfl, bracket_restores before steps "a" hin rfl⟩

end DualStack

end PortableSql
