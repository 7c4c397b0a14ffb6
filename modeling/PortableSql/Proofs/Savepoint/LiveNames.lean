import PortableSql.Proofs.Savepoint.Baseline

/-!
# One stack of savepoints as a list

Without commits a stack of savepoints is the list of its live names, although positions are not
looked up in the list but in an index that follows it.

* `SavepointStack.live`: the live names after a run, outermost first.
* `SavepointStack.Lists`: the entries of a stack are the names of a list, each at its place.
* `SavepointStack.Lists.step`, `SavepointStack.lists_run`: operations follow the list.
* `SavepointStack.Lists.position_of_split`: the position of a name is the index of its last
  occurrence.
* **`SavepointStack.Shows`**, **`SavepointStack.run_shows_live`**: after every run the stack shows
  its live names, and a removal uncovers what was shadowed.
-/

namespace PortableSql

namespace SavepointStack

/-! ## Live names -/

/-- The live names after an operation. -/
def Step.live (names : List String) : Step → List String
  | .push name => names ++ [name]
  | .pop => names.dropLast
  | .position _ => names
  | .reset => []

/-- **The live names after operations in order**, outermost first. -/
def live (steps : List Step) : List String := steps.foldl Step.live []

/-- **The stack lists the names**, the last one on top. -/
structure Lists (s : SavepointStack) (names : List String) : Prop where
  entries : s.stack.entries = names.zipIdx.reverse
  indexed : s.stack.Indexed

namespace Lists

variable {s : SavepointStack} {names : List String}

theorem empty : ({} : SavepointStack).Lists [] := ⟨rfl, NameStack.indexed_empty⟩

theorem size_eq (h : s.Lists names) : s.size = names.length := by
  rw [size, NameStack.size, h.entries, List.length_reverse, List.length_zipIdx]

theorem names_eq (h : s.Lists names) : s.names = names := by
  rw [SavepointStack.names, NameStack.names, h.entries, List.reverse_reverse, List.zipIdx_map_fst]

/-! ## Operations -/

theorem push (h : s.Lists names) (name : String) :
    (s.push name).1 = names.length ∧ (s.push name).2.Lists (names ++ [name]) := by
  have hsize : s.stack.size = names.length := h.size_eq
  rw [SavepointStack.push, hsize]
  refine ⟨rfl, ?_, h.indexed.push name _⟩
  rw [List.zipIdx_append, Nat.zero_add, List.zipIdx_singleton, List.reverse_concat, ← h.entries]
  rfl

theorem pop_nil (h : s.Lists []) : s.pop = .error .underflow := by
  have hentries : s.stack.entries = [] := h.entries
  rw [SavepointStack.pop, NameStack.pop, hentries]

theorem pop {name : String} (h : s.Lists (names ++ [name])) :
    ∃ t, s.pop = .ok (name, t) ∧ t.Lists names := by
  obtain ⟨hentries, hindexed⟩ := h
  rw [List.zipIdx_append, Nat.zero_add, List.zipIdx_singleton, List.reverse_concat] at hentries
  obtain ⟨entries, index⟩ := s
  subst hentries
  exact ⟨_, rfl, rfl, hindexed.dropLast⟩

/-- **An operation on the stack is an operation on its list.** -/
theorem step (h : s.Lists names) (a : Step) : (s.step a).2.Lists (a.live names) := by
  cases a with
  | push name => exact (h.push name).2
  | pop =>
    cases names using List.reverseRecOn with
    | nil =>
      rw [SavepointStack.step, h.pop_nil]
      exact h
    | append_singleton names name =>
      obtain ⟨t, hpop, ht⟩ := h.pop
      rw [SavepointStack.step, hpop, Step.live, List.dropLast_concat]
      exact ht
  | position name => exact h
  | reset => exact empty

/-! ## Positions -/

/-- **The position of a name is the index of its last occurrence.** -/
theorem position_of_split {outer inner : List String} {name : String}
    (h : s.Lists (outer ++ name :: inner)) (hinner : name ∉ inner) :
    s.position name = some outer.length := by
  have hnone : NameStack.positionsOf (inner.zipIdx (outer.length + 1)).reverse name = [] := by
    rwa [NameStack.positionsOf_eq_nil, List.map_reverse, List.mem_reverse, List.zipIdx_map_fst]
  have hentries : s.stack.entries = (inner.zipIdx (outer.length + 1)).reverse ++
      (name, outer.length) :: outer.zipIdx.reverse := by
    rw [h.entries, List.zipIdx_append, Nat.zero_add, List.zipIdx_cons, List.reverse_append,
      List.reverse_cons, List.append_assoc, List.singleton_append]
  rw [position, h.indexed.lastPosition_eq, hentries, NameStack.positionsOf_append, hnone,
    List.nil_append, NameStack.positionsOf_cons_self, List.head?_cons]

theorem position_eq_none (h : s.Lists names) (name : String) :
    s.position name = none ↔ name ∉ names := by
  rw [position, h.indexed.lastPosition_eq, List.head?_eq_none_iff, NameStack.positionsOf_eq_nil,
    h.entries, List.map_reverse, List.mem_reverse, List.zipIdx_map_fst]

theorem position_eq_some (h : s.Lists names) (name : String) (p : Nat) :
    s.position name = some p ↔
      ∃ outer inner, names = outer ++ name :: inner ∧ name ∉ inner ∧ outer.length = p := by
  constructor
  · intro hp
    have hmem : name ∈ names.reverse := by
      by_contra hmem
      rw [List.mem_reverse, ← h.position_eq_none, hp] at hmem
      cases hmem
    obtain ⟨inner, outer, hsplit, hinner⟩ := List.eq_append_cons_of_mem hmem
    have hnames : names = outer.reverse ++ name :: inner.reverse := by
      rw [← names.reverse_reverse, hsplit, List.reverse_append, List.reverse_cons,
        List.append_assoc, List.singleton_append]
    have hinner' : name ∉ inner.reverse := by rwa [List.mem_reverse]
    subst hnames
    exact ⟨_, _, rfl, hinner', Option.some.inj ((h.position_of_split hinner').symm.trans hp)⟩
  · rintro ⟨outer, inner, rfl, hinner, rfl⟩
    exact h.position_of_split hinner

end Lists

/-- **The stack after a run lists the live names.** -/
theorem lists_run (steps : List Step) : (run steps).Lists (live steps) := by
  have hfold {s : SavepointStack} {names : List String} (h : s.Lists names) :
      (steps.foldl (fun s a => (s.step a).2) s).Lists (steps.foldl Step.live names) := by
    induction steps generalizing s names with
    | nil => exact h
    | cons a steps ih => exact ih (h.step a)
  exact hfold Lists.empty

/-! ## What is shown -/

/-- **The stack shows a list of names**: what can be asked of it is an answer about the list, and so
are the answers of its operations. -/
structure Shows (s : SavepointStack) (list : List String) : Prop where
  names : s.names = list
  size : s.size = list.length
  isEmpty : s.isEmpty = list.isEmpty
  /-- The position of a name is the index of its last occurrence. -/
  position_eq_some : ∀ name p, s.position name = some p ↔
    ∃ outer inner, list = outer ++ name :: inner ∧ name ∉ inner ∧ outer.length = p
  position_eq_none : ∀ name, s.position name = none ↔ name ∉ list
  push : ∀ name, (s.step (.push name)).1 = .position (some list.length)
  pop : ∀ outer name, list = outer ++ [name] → (s.step .pop).1 = .name name
  /-- Without live names a removal fails and changes nothing. -/
  pop_nil : list = [] → s.step .pop = (.failed .underflow, s)

theorem Lists.shows {s : SavepointStack} {names : List String} (h : s.Lists names) :
    s.Shows names where
  names := h.names_eq
  size := h.size_eq
  isEmpty := by
    rw [SavepointStack.isEmpty, h.size_eq]
    cases names <;> rfl
  position_eq_some := h.position_eq_some
  position_eq_none := h.position_eq_none
  push name := congrArg (fun p => Answer.position (some p)) (h.push name).1
  pop outer name hnames := by
    subst hnames
    obtain ⟨t, hpop, -⟩ := h.pop
    rw [SavepointStack.step, hpop]
  pop_nil hnames := by
    subst hnames
    rw [SavepointStack.step, h.pop_nil]

/-- **One stack is a plain list.** After every run it shows the live names, and when a name is
removed that was also set further out, the next occurrence of it is visible again. -/
theorem run_shows_live (steps : List Step) :
    (run steps).Shows (live steps) ∧
      ∀ outer name inner, live steps = outer ++ name :: inner ++ [name] → name ∉ inner →
        ((run steps).step .pop).2.position name = some outer.length := by
  have h := lists_run steps
  refine ⟨h.shows, fun outer name inner hlive hinner => ?_⟩
  have hpop := h.step .pop
  rw [Step.live, hlive, List.dropLast_concat] at hpop
  exact hpop.position_of_split hinner

/-- A name that is set twice, before and after others were removed. -/
theorem run_shows_live_shadowed :
    let steps : List Step := [.push "x", .reset, .push "a", .push "b", .push "c", .pop, .push "a"]
    let s := run steps
    live steps = ["a", "b", "a"] ∧ s.position "a" = some 2 ∧ (s.step .pop).1 = .name "a" ∧
      (s.step .pop).2.position "a" = some 0 := by
  intro steps s
  have hlive : live steps = ["a", "b", "a"] := rfl
  obtain ⟨hshows, huncovered⟩ := run_shows_live steps
  refine ⟨hlive, ?_, hshows.pop ["a", "b"] "a" hlive, huncovered [] "a" ["b"] hlive (by decide)⟩
  exact (hshows.position_eq_some "a" 2).mpr ⟨["a", "b"], [], hlive, List.not_mem_nil, rfl⟩

end SavepointStack

end PortableSql
