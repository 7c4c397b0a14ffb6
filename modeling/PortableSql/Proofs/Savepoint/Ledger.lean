import Mathlib.Data.List.Induction
import PortableSql.Savepoint.DualStack

/-!
# Savepoints as one list

A ledger lists the live savepoints and says of each whether it is still open, that is, not yet
committed.

* `Ledger.Entry`, **`Ledger`**, `Ledger.marks`: entries, and the names and indices of those with a
  property.
* `Ledger.step`: what an operation does to a ledger.
* `DualStack.View`, `DualStack.transcript`: what can be observed after each operation.
* **`Ledger.exists_split`**: a ledger around the last entry with a property.
-/

namespace PortableSql

/-! ## Ledgers -/

/-- A live savepoint, which is open until it is committed. -/
structure Ledger.Entry where
  name : String
  isOpen : Bool
  deriving Repr, DecidableEq

/-- **The live savepoints**, outermost first. -/
abbrev Ledger := List Ledger.Entry

namespace Ledger

/-- The savepoint is committed. -/
def Entry.close (e : Entry) : Entry := { e with isOpen := false }

/-- The entry has a name. -/
def Entry.isNamed (name : String) (e : Entry) : Bool := e.name = name

/-- The entry has a name and is open. -/
def Entry.isOpenNamed (name : String) (e : Entry) : Bool := e.isOpen && e.isNamed name

/-- The names and indices of the entries with a property, if the first entry has index `k`. -/
def marksFrom (k : Nat) (p : Entry → Bool) (l : Ledger) : List (String × Nat) :=
  ((l.zipIdx k).filter fun m => p m.1).map fun m => (m.1.name, m.2)

/-- **The names and indices of the entries with a property.** -/
def marks (p : Entry → Bool) (l : Ledger) : List (String × Nat) := marksFrom 0 p l

/-- The indices of the entries with a property. -/
def indices (p : Entry → Bool) (l : Ledger) : List Nat := (l.marks p).map (·.2)

/-- The name and the index of the last entry with a property. -/
def last? (p : Entry → Bool) (l : Ledger) : Option (String × Nat) := (l.marks p).getLast?

/-- **Performs an operation**: the answer, and the ledger after it. -/
def step (l : Ledger) : DualStack.Step → Answer × Ledger
  | .push name => (.position (some l.length), l ++ [⟨name, true⟩])
  | .pop => match l.getLast? with
    | none => (.failed .underflow, l)
    | some e => (.name e.name, l.dropLast)
  | .commit => match l.last? (·.isOpen) with
    | none => (.failed .underflow, l)
    | some (name, k) => (.name name, l.modify k Entry.close)
  | .commitTo name => match l.last? (Entry.isOpenNamed name) with
    | none => (.position none, l)
    | some (_, k) => (.position (some k), l.take k ++ (l.drop k).map Entry.close)
  | .position name => (.position ((l.last? (Entry.isNamed name)).map (·.2)), l)
  | .uncommittedPosition name => (.position ((l.last? (Entry.isOpenNamed name)).map (·.2)), l)
  | .reset => (.done, [])

end Ledger

/-! ## Observations -/

/-- What can be observed of savepoints. -/
structure DualStack.View where
  names : List String
  size : Nat
  isEmpty : Bool
  position : String → Option Nat
  uncommittedPosition : String → Option Nat
  fullPositions : String → List Nat
  uncommittedPositions : String → List Nat
  uncommittedCount : Nat

/-- What can be observed of the stacks. -/
def DualStack.view (s : DualStack) : View where
  names := s.names
  size := s.size
  isEmpty := s.isEmpty
  position := s.position
  uncommittedPosition := s.uncommittedPosition
  fullPositions := s.fullPositions
  uncommittedPositions := s.uncommittedPositions
  uncommittedCount := s.uncommittedCount

/-- What can be observed of a ledger. -/
def Ledger.view (l : Ledger) : DualStack.View where
  names := l.map (·.name)
  size := l.length
  isEmpty := l.isEmpty
  position name := (l.last? (Entry.isNamed name)).map (·.2)
  uncommittedPosition name := (l.last? (Entry.isOpenNamed name)).map (·.2)
  fullPositions name := l.indices (Entry.isNamed name)
  uncommittedPositions name := l.indices (Entry.isOpenNamed name)
  uncommittedCount := l.countP (·.isOpen)

/-- The answers to operations in order, each with what can be observed after it. -/
def DualStack.transcript {σ : Type} (step : σ → Step → Answer × σ) (view : σ → View) :
    σ → List Step → List (Answer × View)
  | _, [] => []
  | s, a :: steps => ((step s a).1, view (step s a).2) :: transcript step view (step s a).2 steps

namespace Ledger

theorem modify_append (a b : Ledger) (e : Entry) (f : Entry → Entry) :
    (a ++ e :: b).modify a.length f = a ++ f e :: b := by
  rw [List.modify_eq_take_drop, List.take_left, List.drop_left, List.modifyHead_cons]

/-! ## Marks -/

variable (p : Entry → Bool) (l : Ledger)

theorem marks_append (a b : Ledger) : marks p (a ++ b) = marks p a ++ marksFrom a.length p b := by
  simp only [marks, marksFrom, List.zipIdx_append, List.filter_append, List.map_append,
    Nat.zero_add]

theorem marksFrom_cons (k : Nat) (e : Entry) :
    marksFrom k p (e :: l) =
      if p e then (e.name, k) :: marksFrom (k + 1) p l else marksFrom (k + 1) p l := by
  simp only [marksFrom, List.zipIdx_cons, List.filter_cons]
  split <;> rfl

theorem marksFrom_eq_nil (k : Nat) {l : Ledger} (h : ∀ e ∈ l, p e = false) :
    marksFrom k p l = [] := by
  induction l generalizing k with
  | nil => rfl
  | cons e l ih =>
    obtain ⟨he, hl⟩ := List.forall_mem_cons.mp h
    rw [marksFrom_cons, he, if_neg Bool.false_ne_true, ih _ hl]

theorem le_of_mem_marksFrom {k : Nat} {m : String × Nat} (h : m ∈ marksFrom k p l) :
    k ≤ m.2 ∧ m.2 < k + l.length := by
  obtain ⟨⟨e, i⟩, hm, rfl⟩ := List.mem_map.mp h
  obtain ⟨hk, hi, -⟩ := List.mem_zipIdx (List.mem_filter.mp hm).1
  exact ⟨hk, hi⟩

/-- The marks of a ledger whose last entries do not have the property. -/
theorem marks_append_of_forall {b : Ledger} (a : Ledger) (h : ∀ e ∈ b, p e = false) :
    marks p (a ++ b) = marks p a := by
  rw [marks_append, marksFrom_eq_nil p _ h, List.append_nil]

theorem marks_concat (e : Entry) :
    marks p (l ++ [e]) = marks p l ++ if p e then [(e.name, l.length)] else [] := by
  rw [marks_append, marksFrom_cons]
  rfl

/-- The marks of all entries depend on the names only. -/
theorem marks_all : marks (fun _ => true) l = (l.map (·.name)).zipIdx := by
  rw [marks, marksFrom, List.filter_eq_self.mpr fun _ _ => rfl, List.zipIdx_map]
  rfl

theorem marks_all_congr {l l' : Ledger} (h : l.map (·.name) = l'.map (·.name)) :
    marks (fun _ => true) l = marks (fun _ => true) l' := by
  rw [marks_all, marks_all, h]

theorem length_marks : (marks p l).length = l.countP p := by
  have h : l.countP p = (l.zipIdx.map Prod.fst).countP p := by rw [List.zipIdx_map_fst]
  rw [marks, marksFrom, List.length_map, ← List.countP_eq_length_filter, h, List.countP_map]
  rfl

/-- The positions of a name among the marks. -/
theorem filter_marks (name : String) :
    (marks p l).filter (fun m => m.1 = name) = marks (fun e => p e && e.isNamed name) l := by
  simp only [marks, marksFrom, List.filter_map, List.filter_filter]
  congr 2
  funext m
  exact Bool.and_comm _ _

theorem marks_eq_nil {l : Ledger} (h : l.last? p = none) : l.marks p = [] :=
  List.getLast?_eq_none_iff.mp h

/-- **A ledger is split at the last entry with a property.** -/
theorem exists_split {l : Ledger} {name : String} {k : Nat} (h : l.last? p = some (name, k)) :
    ∃ a e b, l = a ++ e :: b ∧ a.length = k ∧ e.name = name ∧ p e = true ∧
      ∀ x ∈ b, p x = false := by
  -- from the end, since what is sought is the last such entry
  induction l using List.reverseRecOn with
  | nil => cases h
  | append_singleton l e ih =>
    rw [last?, marks_concat] at h
    by_cases he : p e = true
    · rw [if_pos he, List.getLast?_concat, Option.some.injEq, Prod.mk.injEq] at h
      exact ⟨l, e, [], rfl, h.2, h.1, he, fun _ hx => nomatch hx⟩
    · rw [if_neg he, List.append_nil] at h
      obtain ⟨a, x, b, rfl, hk, hx, hp, hb⟩ := ih h
      refine ⟨a, x, b ++ [e], by simp, hk, hx, hp, fun y hy => ?_⟩
      rcases List.mem_append.mp hy with hy | hy
      · exact hb y hy
      · rw [List.mem_singleton.mp hy]
        exact Bool.eq_false_iff.mpr he

end Ledger

end PortableSql
