import PortableSql.Proofs.Savepoint.Invariant

/-!
# Commits down to a name

A commit of a name is as many commits of the innermost uncommitted savepoint as it takes. The loop
stops at a position, and so does not ask for the name; since uncommitted positions increase towards
the top, it ends just after the name is committed for the first time.

* `DualStack.commitFrom`: commits down to a position, one by one.
* `DualStack.commitUntil`: commits until a name has been committed once.
* `DualStack.commitFrom_eq`: the former never fails, and leaves what is taken at once.
* `NameStack.exists_split_of_lastPosition`: the entries above the last one of a name, and below it.
* **`DualStack.commitUntil_eq_commitFrom`**: the two loops agree where positions increase.
* **`DualStack.commitTo_eq_commits`**: what a commit of a name does after every run.
-/

namespace PortableSql

/-! ## Entries around the last one of a name -/

namespace NameStack

/-- **The last entry of a name** has none of the name above it, later positions above it and earlier
ones below it. -/
theorem exists_split_of_lastPosition {s : NameStack} (h : s.Indexed)
    (hs : (s.entries.reverse.map (·.2)).Pairwise (· < ·)) {name : String} {p : Nat}
    (hlast : s.lastPosition name = some p) :
    ∃ above below, s.entries = above ++ (name, p) :: below ∧
      (∀ e ∈ above, e.1 ≠ name ∧ p < e.2) ∧ ∀ e ∈ below, e.2 < p := by
  have hfind : (s.entries.find? fun e => e.1 = name).map (·.2) = some p := by
    rw [← hlast, h.lastPosition_eq, positionsOf, List.head?_map, List.head?_filter]
  obtain ⟨e, he, rfl⟩ := Option.map_eq_some_iff.mp hfind
  obtain ⟨hname, above, below, hentries, habove⟩ := List.find?_eq_some_iff_append.mp he
  obtain rfl : e.1 = name := of_decide_eq_true hname
  rw [List.map_reverse, List.pairwise_reverse, hentries, List.map_append, List.map_cons,
    List.pairwise_append, List.pairwise_cons] at hs
  obtain ⟨-, ⟨hbelow, -⟩, hcross⟩ := hs
  refine ⟨above, below, hentries, fun x hx => ⟨?_, ?_⟩, fun x hx => ?_⟩
  · simpa using habove x hx
  · exact hcross _ (List.mem_map_of_mem hx) _ List.mem_cons_self
  · exact hbelow _ (List.mem_map_of_mem hx)

end NameStack

namespace DualStack

/-! ## Commits one by one -/

theorem commit_of_entries {s : DualStack} {e : String × Nat} {rest : List (String × Nat)}
    (h : s.uncommitted.entries = e :: rest) :
    s.commit =
      .ok (e.1, { s with uncommitted := ⟨rest, s.uncommitted.index.dropLast e.1⟩ }) := by
  rw [commit, NameStack.pop_eq_some h]

/-- A commit takes an uncommitted savepoint. -/
theorem size_lt_of_commit {s t : DualStack} {name : String} (h : s.commit = .ok (name, t)) :
    t.uncommitted.size < s.uncommitted.size := by
  cases hs : s.uncommitted.entries with
  | nil =>
    rw [commit, NameStack.pop, hs] at h
    cases h
  | cons e rest =>
    rw [commit_of_entries hs] at h
    cases h
    rw [NameStack.size, NameStack.size, hs]
    exact Nat.lt_succ_self _

/-- **Commits as long as the innermost uncommitted savepoint has position `target` or later.** -/
def commitFrom (target : Nat) (s : DualStack) : Except Underflow DualStack :=
  match s.uncommitted.top? with
  | none => .ok s
  | some (_, position) =>
    if position < target then .ok s
    else match _h : s.commit with
      | .error e => .error e
      | .ok (_, t) => t.commitFrom target
termination_by s.uncommitted.size
decreasing_by exact size_lt_of_commit _h

/-- **Commits until `name` has been committed once.** -/
def commitUntil (name : String) (s : DualStack) : Except Underflow DualStack :=
  match _h : s.commit with
  | .error e => .error e
  | .ok (committed, t) => if committed = name then .ok t else t.commitUntil name
termination_by s.uncommitted.size
decreasing_by exact size_lt_of_commit _h

section

variable {s t : DualStack} {name committed : String} {target : Nat}

theorem commitFrom_of_lt (h : ∀ e ∈ s.uncommitted.top?, e.2 < target) :
    s.commitFrom target = .ok s := by
  rw [commitFrom]
  cases htop : s.uncommitted.top? with
  | none => rfl
  | some e => exact if_pos (h e htop)

theorem commitFrom_of_le {e : String × Nat} (htop : s.uncommitted.top? = some e)
    (hle : target ≤ e.2) (h : s.commit = .ok (committed, t)) :
    s.commitFrom target = t.commitFrom target := by
  rw [commitFrom, htop]
  simp only [if_neg (Nat.not_lt_of_le hle)]
  split
  · next e he => cases he.symm.trans h
  · next n u hu =>
    cases hu.symm.trans h
    rfl

theorem commitUntil_of_commit (h : s.commit = .ok (committed, t)) :
    s.commitUntil name = if committed = name then .ok t else t.commitUntil name := by
  rw [commitUntil]
  split
  · next e he => cases he.symm.trans h
  · next n u hu =>
    cases hu.symm.trans h
    rfl

/-- **Commits down to a position never fail**, and leave what is taken at once. -/
theorem commitFrom_eq (target : Nat) (s : DualStack) :
    s.commitFrom target = .ok { s with uncommitted := s.uncommitted.popFrom target } := by
  obtain ⟨full, entries, index⟩ := s
  induction entries generalizing index with
  | nil =>
    rw [commitFrom]
    rfl
  | cons e entries ih =>
    rw [NameStack.popFrom, NameStack.popEntries]
    by_cases he : e.2 < target
    · rw [if_pos he, commitFrom_of_lt fun x hx => Option.some.inj hx ▸ he]
    · rw [if_neg he, commitFrom_of_le rfl (Nat.le_of_not_lt he) (commit_of_entries rfl), ih]
      rfl

/-- **The two loops agree where positions increase**: above the last entry of the name they go past
the same entries, and below it the position stops the one that does not look at names. -/
theorem commitUntil_eq_commitFrom {p : Nat} {above below : List (String × Nat)}
    (hs : s.uncommitted.entries = above ++ (name, p) :: below)
    (habove : ∀ e ∈ above, e.1 ≠ name ∧ p < e.2) (hbelow : ∀ e ∈ below, e.2 < p) :
    s.commitUntil name = s.commitFrom p := by
  induction above generalizing s with
  | nil =>
    have htop : s.uncommitted.top? = some (name, p) := congrArg List.head? hs
    have hcommit := commit_of_entries hs
    rw [commitUntil_of_commit hcommit, if_pos rfl, commitFrom_of_le htop (Nat.le_refl p) hcommit]
    refine (commitFrom_of_lt fun e he => ?_).symm
    exact hbelow e (List.mem_of_mem_head? he)
  | cons e above ih =>
    obtain ⟨⟨hname, hlt⟩, habove⟩ := List.forall_mem_cons.mp habove
    have htop : s.uncommitted.top? = some e := congrArg List.head? hs
    have hcommit := commit_of_entries hs
    rw [commitUntil_of_commit hcommit, if_neg hname,
      commitFrom_of_le htop (Nat.le_of_lt hlt) hcommit]
    exact ih rfl habove

end

/-! ## Commits of a name -/

theorem getLast?_uncommittedPositions (s : DualStack) (name : String) :
    (s.uncommittedPositions name).getLast? = s.uncommitted.lastPosition name := by
  rw [uncommittedPositions, NameStack.positions, List.getLast?_reverse, NameStack.lastPosition,
    Std.ExtTreeMap.getD_eq_getD_getElem?]
  cases s.uncommitted.index[name]? <;> rfl

/-- **What is left when a name is committed** whose last uncommitted position is `p`. -/
structure CommittedTo (s : DualStack) (name : String) (p : Nat) (t : DualStack) : Prop where
  /-- The full stack stays as it is, positions included. -/
  full : t.full = s.full
  /-- What lies before the position is kept, and nothing else. -/
  uncommitted : t.uncommitted.entries = s.uncommitted.entries.filter (·.2 < p)
  /-- It is what commits leave when the name has been committed once. -/
  commitUntil : s.commitUntil name = .ok t
  /-- The loop down to the position ends there without an underflow. -/
  commitFrom : s.commitFrom p = .ok t

theorem Refines.committedTo {s : DualStack} {l : Ledger} (h : s.Refines l) {name : String} {p : Nat}
    (hlast : s.uncommitted.lastPosition name = some p) :
    s.CommittedTo name p { s with uncommitted := s.uncommitted.popFrom p } := by
  obtain ⟨above, below, hs, habove, hbelow⟩ :=
    NameStack.exists_split_of_lastPosition h.uncommitted.indexed h.invariant.increasing hlast
  have hloop := commitFrom_eq p s
  refine ⟨rfl, ?_, (commitUntil_eq_commitFrom hs habove hbelow).trans hloop, hloop⟩
  have hfrom : ∀ e ∈ above ++ [(name, p)], p ≤ e.2 :=
    List.forall_mem_append.mpr ⟨fun e he => Nat.le_of_lt (habove e he).2, by simp⟩
  rw [List.append_cons] at hs
  rw [NameStack.entries_popFrom hs hfrom hbelow, hs, List.filter_append,
    List.filter_eq_nil_iff.mpr fun e he => by simpa using hfrom e he, List.nil_append,
    List.filter_eq_self.mpr fun e he => by simpa using hbelow e he]

/-- **A commit of a name is iterated commit.** After every run, it answers nothing and changes
nothing just when the name has no uncommitted position; otherwise it answers the last one, and
leaves what commits leave when they have come to the name, the loop over positions as well as the
one over names: the full stack as it was, and the uncommitted savepoints before that position. -/
theorem commitTo_eq_commits (steps : List Step) (name : String) :
    let s := run steps
    (s.step (.commitTo name) = (.position none, s) ↔ s.uncommittedPositions name = []) ∧
      ∀ p, (s.uncommittedPositions name).getLast? = some p →
        ∃ t, s.step (.commitTo name) = (.position (some p), t) ∧ s.CommittedTo name p t := by
  intro s
  obtain ⟨l, h⟩ := exists_refines_run steps
  refine ⟨?_, fun p hp => ?_⟩
  · rw [← List.getLast?_eq_none_iff, getLast?_uncommittedPositions, step, commitTo]
    cases hlast : s.uncommitted.lastPosition name with
    | none => exact ⟨fun _ => rfl, fun _ => rfl⟩
    | some p => constructor <;> rintro ⟨⟩
  · rw [getLast?_uncommittedPositions] at hp
    refine ⟨_, ?_, h.committedTo hp⟩
    rw [step, commitTo, hp]
    rfl

/-- The name is used twice, at a position that was used before as well, with a savepoint that is
committed already above it. -/
theorem commitTo_eq_commits_reused :
    let s := run [.push "a", .push "b", .pop, .push "a", .push "b", .push "c", .commit]
    (s.uncommittedPositions "a").getLast? = some 1 ∧
      ∃ t, s.step (.commitTo "a") = (.position (some 1), t) ∧ s.commitUntil "a" = .ok t ∧
        s.commitFrom 1 = .ok t ∧ t.uncommitted.entries = [("a", 0)] ∧ t.names = s.names := by
  intro s
  have hlast : (s.uncommittedPositions "a").getLast? = some 1 := rfl
  obtain ⟨t, hstep, ht⟩ := (commitTo_eq_commits _ "a").2 1 hlast
  exact ⟨hlast, t, hstep, ht.commitUntil, ht.commitFrom, ht.uncommitted,
    congrArg NameStack.names ht.full⟩

end DualStack

end PortableSql
