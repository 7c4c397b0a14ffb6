import PortableSql.Proofs.Savepoint.Ledger
import PortableSql.Proofs.Savepoint.Positions

/-!
# The stacks of a ledger

The two stacks of `DualStack` with their indexes are redundant: whatever they answer can be read off
one ledger.

* `NameStack.Lists`: a stack lists the entries of a ledger with a property.
* **`DualStack.Refines`**: one stack lists all entries, the other one the open ones.
* `DualStack.Refines.view_eq`, **`DualStack.Refines.step`**: the stacks show what the ledger shows,
  and stay the stacks of a ledger.
* **`DualStack.transcript_eq_ledger`**: every run gives the answers and the views of its ledger.
-/

namespace PortableSql

/-! ## Stacks that list marks -/

/-- **The stack lists the entries of a ledger with a property**, the last one on top. -/
structure NameStack.Lists (s : NameStack) (p : Ledger.Entry → Bool) (l : Ledger) : Prop where
  entries : s.entries = (l.marks p).reverse
  indexed : s.Indexed

namespace NameStack.Lists

open Ledger

variable {s : NameStack} {p : Entry → Bool} {l : Ledger}

theorem of_marks_eq (h : s.Lists p l) {l' : Ledger} (hm : l'.marks p = l.marks p) :
    s.Lists p l' := by
  refine ⟨?_, h.indexed⟩
  rw [hm, h.entries]

theorem positionsOf_eq (h : s.Lists p l) (name : String) :
    positionsOf s.entries name = (l.indices fun e => p e && e.isNamed name).reverse := by
  rw [positionsOf, h.entries, List.filter_reverse, List.map_reverse, filter_marks, indices]

theorem positions (h : s.Lists p l) (name : String) :
    s.positions name = l.indices fun e => p e && e.isNamed name := by
  rw [h.indexed.positions_eq, h.positionsOf_eq, List.reverse_reverse]

theorem lastPosition (h : s.Lists p l) (name : String) :
    s.lastPosition name = (l.last? fun e => p e && e.isNamed name).map (·.2) := by
  rw [h.indexed.lastPosition_eq, h.positionsOf_eq, List.head?_reverse, indices, List.getLast?_map,
    last?]

theorem size (h : s.Lists p l) : s.size = l.countP p := by
  rw [NameStack.size, h.entries, List.length_reverse, length_marks]

theorem push (h : s.Lists p l) {e : Entry} (he : p e = true) :
    (s.push e.name l.length).Lists p (l ++ [e]) := by
  refine ⟨?_, h.indexed.push _ _⟩
  rw [marks_concat, if_pos he, List.reverse_concat, NameStack.push, h.entries]

theorem pop_eq_none (h : s.Lists p l) (hl : l.last? p = none) : s.pop = none := by
  have hs : s.entries = [] := by rw [h.entries, marks_eq_nil p hl, List.reverse_nil]
  simp only [NameStack.pop, hs]

/-- The last entry with the property is taken. -/
theorem pop {a b : Ledger} {e : Entry} (h : s.Lists p (a ++ e :: b)) (he : p e = true)
    (hb : ∀ x ∈ b, p x = false) :
    ∃ t, s.pop = some ((e.name, a.length), t) ∧ t.Lists p a := by
  obtain ⟨hs, hi⟩ := h
  have hm : marks p (a ++ e :: b) = marks p a ++ [(e.name, a.length)] := by
    rw [List.append_cons, marks_append_of_forall p _ hb, marks_concat, if_pos he]
  rw [hm, List.reverse_concat] at hs
  obtain ⟨entries, ix⟩ := s
  subst hs
  exact ⟨_, rfl, rfl, hi.dropLast⟩

/-- The entries from an index on are taken. -/
theorem popFrom {a b : Ledger} (h : s.Lists p (a ++ b)) : (s.popFrom a.length).Lists p a := by
  refine ⟨?_, h.indexed.popFrom _⟩
  have hs := h.entries
  rw [marks_append, List.reverse_append] at hs
  refine entries_popFrom hs (fun m hm => ?_) fun m hm => ?_
  · exact (le_of_mem_marksFrom p b (List.mem_reverse.mp hm)).1
  · have hlt := (le_of_mem_marksFrom p a (List.mem_reverse.mp hm)).2
    rwa [Nat.zero_add] at hlt

end NameStack.Lists

/-! ## The two stacks -/

/-- **The stacks of a ledger**: one lists all its entries, the other one those that are open. -/
structure DualStack.Refines (s : DualStack) (l : Ledger) : Prop where
  full : s.full.Lists (fun _ => true) l
  uncommitted : s.uncommitted.Lists (·.isOpen) l

namespace DualStack.Refines

open Ledger

variable {s : DualStack} {l : Ledger}

theorem empty : ({} : DualStack).Refines [] :=
  ⟨⟨rfl, NameStack.indexed_empty⟩, ⟨rfl, NameStack.indexed_empty⟩⟩

/-! ### Observations -/

theorem names_eq (h : s.Refines l) : s.names = l.map (·.name) := by
  rw [names, NameStack.names, h.full.entries, List.reverse_reverse, marks_all, List.zipIdx_map_fst]

theorem size_eq (h : s.Refines l) : s.size = l.length := by
  rw [size, h.full.size, List.countP_true]

theorem position_eq (h : s.Refines l) (name : String) :
    s.position name = (l.last? (Entry.isNamed name)).map (·.2) :=
  h.full.lastPosition name

theorem uncommittedPosition_eq (h : s.Refines l) (name : String) :
    s.uncommittedPosition name = (l.last? (Entry.isOpenNamed name)).map (·.2) :=
  h.uncommitted.lastPosition name

/-- **The stacks show what their ledger shows.** -/
theorem view_eq (h : s.Refines l) : s.view = l.view := by
  have hempty : s.isEmpty = l.isEmpty := by
    rw [isEmpty, h.size_eq]
    cases l <;> rfl
  have hposition : s.position = _ := funext h.position_eq
  have huncommitted : s.uncommittedPosition = _ := funext h.uncommittedPosition_eq
  have hfull : s.fullPositions = _ := funext h.full.positions
  have hopen : s.uncommittedPositions = _ := funext h.uncommitted.positions
  have hcount : s.uncommittedCount = _ := h.uncommitted.size
  rw [view, h.names_eq, h.size_eq, hempty, hposition, huncommitted, hfull, hopen, hcount]
  rfl

/-! ### Operations -/

theorem push (h : s.Refines l) (name : String) :
    (s.push name).1 = l.length ∧ (s.push name).2.Refines (l ++ [⟨name, true⟩]) := by
  have hsize : s.full.size = l.length := h.size_eq
  rw [DualStack.push, hsize]
  exact ⟨rfl, h.full.push (e := ⟨name, true⟩) rfl, h.uncommitted.push (e := ⟨name, true⟩) rfl⟩

theorem commit_eq_error (h : s.Refines l) (hl : l.last? (·.isOpen) = none) :
    s.commit = .error .underflow := by
  rw [DualStack.commit, h.uncommitted.pop_eq_none hl]

/-- Committing closes the last open entry. -/
theorem commit {a b : Ledger} {e : Entry} (h : s.Refines (a ++ e :: b)) (he : e.isOpen = true)
    (hb : ∀ x ∈ b, x.isOpen = false) :
    ∃ t, s.commit = .ok (e.name, t) ∧ t.Refines (a ++ e.close :: b) := by
  obtain ⟨t, hpop, ht⟩ := h.uncommitted.pop he hb
  refine ⟨{ s with uncommitted := t }, ?_, h.full.of_marks_eq (marks_all_congr ?_),
    ht.of_marks_eq (marks_append_of_forall _ a ?_)⟩
  · rw [DualStack.commit, hpop]
  · simp [Entry.close]
  · exact List.forall_mem_cons.mpr ⟨rfl, hb⟩

theorem commitTo_eq_none (h : s.Refines l) {name : String}
    (hl : l.last? (Entry.isOpenNamed name) = none) : s.commitTo name = none := by
  have hlast : s.uncommitted.lastPosition name = _ := h.uncommittedPosition_eq name
  rw [DualStack.commitTo, hlast, hl]
  rfl

/-- Committing a name closes everything from its last open entry on. -/
theorem commitTo (h : s.Refines l) {name n : String} {k : Nat}
    (hl : l.last? (Entry.isOpenNamed name) = some (n, k)) :
    ∃ t, s.commitTo name = some (k, t) ∧ t.Refines (l.take k ++ (l.drop k).map Entry.close) := by
  have hlast : s.uncommitted.lastPosition name = _ := h.uncommittedPosition_eq name
  obtain ⟨a, e, b, rfl, rfl, -⟩ := exists_split _ hl
  rw [List.take_left, List.drop_left]
  refine ⟨{ s with uncommitted := s.uncommitted.popFrom a.length }, ?_,
    h.full.of_marks_eq (marks_all_congr ?_),
    h.uncommitted.popFrom.of_marks_eq (marks_append_of_forall _ a ?_)⟩
  · rw [DualStack.commitTo, hlast, hl]
    rfl
  · simp [Entry.close]
  · intro x hx
    obtain ⟨y, -, rfl⟩ := List.mem_map.mp hx
    rfl

/-- The last entry is the innermost uncommitted savepoint of its name if it is open. -/
theorem lastPosition_concat {e : Entry} (h : s.Refines (l ++ [e])) :
    s.uncommitted.lastPosition e.name = some l.length ↔ e.isOpen = true := by
  have hlast : s.uncommitted.lastPosition e.name = _ := h.uncommittedPosition_eq e.name
  rw [hlast, last?, marks_concat]
  cases he : e.isOpen with
  | true => simp [Entry.isOpenNamed, Entry.isNamed, he]
  | false =>
    have hopen : Entry.isOpenNamed e.name e = false := by rw [Entry.isOpenNamed, he, Bool.false_and]
    rw [if_neg (by rw [hopen]; exact Bool.false_ne_true), List.append_nil]
    refine ⟨fun hm => ?_, fun hf => absurd hf Bool.false_ne_true⟩
    -- an earlier entry with the name may be open, but has a smaller index
    obtain ⟨m, hm, hk⟩ := Option.map_eq_some_iff.mp hm
    have hlt := (le_of_mem_marksFrom _ l (List.mem_of_getLast? hm)).2
    omega

theorem pop_nil (h : s.Refines []) : s.pop = .error .underflow := by
  rw [DualStack.pop, h.full.pop_eq_none rfl]

/-- Popping removes the last entry. -/
theorem pop {e : Entry} (h : s.Refines (l ++ [e])) :
    ∃ t, s.pop = .ok (e.name, t) ∧ t.Refines l := by
  obtain ⟨f, hfull, hf⟩ := h.full.pop rfl (fun _ hx => nomatch hx)
  by_cases he : e.isOpen = true
  · obtain ⟨u, hpop, hu⟩ := h.uncommitted.pop he (fun _ hx => nomatch hx)
    refine ⟨⟨f, u⟩, ?_, hf, hu⟩
    simp only [DualStack.pop, hfull, if_pos (h.lastPosition_concat.mpr he), DualStack.commit, hpop]
    rfl
  · refine ⟨{ s with full := f }, ?_, hf, h.uncommitted.of_marks_eq ?_⟩
    · simp only [DualStack.pop, hfull, if_neg (mt h.lastPosition_concat.mp he)]
    · rw [marks_concat, if_neg he, List.append_nil]

/-- **An operation on the stacks is an operation on their ledger.** -/
theorem step (h : s.Refines l) (a : Step) :
    (s.step a).1 = (l.step a).1 ∧ (s.step a).2.Refines (l.step a).2 := by
  cases a with
  | push name =>
    obtain ⟨hk, ht⟩ := h.push name
    exact ⟨congrArg (fun k => Answer.position (some k)) hk, ht⟩
  | pop =>
    cases l using List.reverseRecOn with
    | nil =>
      rw [DualStack.step, h.pop_nil]
      exact ⟨rfl, h⟩
    | append_singleton l e =>
      obtain ⟨t, hpop, ht⟩ := h.pop
      rw [DualStack.step, hpop, Ledger.step, List.getLast?_concat, List.dropLast_concat]
      exact ⟨rfl, ht⟩
  | commit =>
    cases hl : l.last? (·.isOpen) with
    | none =>
      rw [DualStack.step, h.commit_eq_error hl, Ledger.step, hl]
      exact ⟨rfl, h⟩
    | some m =>
      obtain ⟨a, e, b, rfl, hk, hname, he, hb⟩ := exists_split _ hl
      obtain ⟨t, hcommit, ht⟩ := h.commit he hb
      rw [← modify_append, hk] at ht
      rw [DualStack.step, hcommit, Ledger.step, hl]
      exact ⟨congrArg Answer.name hname, ht⟩
  | commitTo name =>
    cases hl : l.last? (Entry.isOpenNamed name) with
    | none =>
      rw [DualStack.step, h.commitTo_eq_none hl, Ledger.step, hl]
      exact ⟨rfl, h⟩
    | some m =>
      obtain ⟨t, hcommit, ht⟩ := h.commitTo hl
      rw [DualStack.step, hcommit, Ledger.step, hl]
      exact ⟨rfl, ht⟩
  | position name => exact ⟨congrArg Answer.position (h.position_eq name), h⟩
  | uncommittedPosition name => exact ⟨congrArg Answer.position (h.uncommittedPosition_eq name), h⟩
  | reset => exact ⟨rfl, empty⟩

theorem transcript_eq (h : s.Refines l) (steps : List Step) :
    transcript DualStack.step view s steps = transcript Ledger.step Ledger.view l steps := by
  induction steps generalizing s l with
  | nil => rfl
  | cons a steps ih =>
    obtain ⟨hanswer, ht⟩ := h.step a
    rw [transcript, transcript, hanswer, ht.view_eq, ih ht]

end DualStack.Refines

namespace DualStack

/-- A failed operation changes nothing. -/
theorem step_of_failed (s : DualStack) (a : Step) {e : Underflow} (h : (s.step a).1 = .failed e) :
    (s.step a).2 = s := by
  have hresult (r : Except Underflow (String × DualStack)) (hr : (s.ofResult r).1 = .failed e) :
      (s.ofResult r).2 = s := by
    cases r with
    | error e => rfl
    | ok r => cases hr
  cases a with
  | push name => cases h
  | pop => exact hresult s.pop h
  | commit => exact hresult s.commit h
  | commitTo name =>
    rw [step] at h
    split at h <;> cases h
  | position name => rfl
  | uncommittedPosition name => rfl
  | reset => cases h

/-- **Every run of the stacks is a run of a ledger**: the stacks are created with the same view,
every operation gives the same answer and leads to the same view, and an operation that fails
changes nothing. -/
theorem transcript_eq_ledger (steps : List Step) :
    ({} : DualStack).view = Ledger.view [] ∧
      transcript step view {} steps = transcript Ledger.step Ledger.view [] steps ∧
      ∀ (s : DualStack) (a : Step) (e : Underflow), (s.step a).1 = .failed e → (s.step a).2 = s :=
  ⟨Refines.empty.view_eq, Refines.empty.transcript_eq steps, fun s a _ => s.step_of_failed a⟩

/-- Popping and committing without savepoints fail and leave none. -/
theorem transcript_eq_ledger_underflow :
    (({} : DualStack).step .pop).1 = .failed .underflow ∧ (({} : DualStack).step .pop).2 = {} ∧
      (({} : DualStack).step .commit).1 = .failed .underflow ∧
      (({} : DualStack).step .commit).2 = {} :=
  ⟨rfl, (transcript_eq_ledger []).2.2 {} .pop .underflow rfl, rfl,
    (transcript_eq_ledger []).2.2 {} .commit .underflow rfl⟩

end DualStack

end PortableSql
