import Std.Data.ExtTreeMap

/-!
# Stacks of named positions

* **`NameStack`**: entries with their names and positions, and an index from each name to the
  positions of its entries.
* `NameStack.push`, `NameStack.pop`, `NameStack.popFrom`: the index follows the entries.
* `NameStack.names`, `NameStack.positions`, `NameStack.lastPosition`: what can be asked.
* `Underflow`: the error of taking an entry from an empty stack.
-/

namespace PortableSql

/-- An entry was to be taken from an empty stack. -/
inductive Underflow where
  | underflow
  deriving Repr, DecidableEq

/-- The wording of the error. -/
def Underflow.message (_ : Underflow) : String := "savepoint stack underflow"

/-- The positions of each name, the last one first; a name without entries is absent. -/
abbrev PositionIndex := Std.ExtTreeMap String (List Nat)

namespace PositionIndex

/-- The index with one more position of a name. -/
def add (ix : PositionIndex) (name : String) (position : Nat) : PositionIndex :=
  ix.alter name fun ps => some (position :: ps.getD [])

/-- The positions without the last one, if any are left. -/
def withoutLast : Option (List Nat) → Option (List Nat)
  | some (_ :: p :: ps) => some (p :: ps)
  | _ => none

/-- The index without the last position of a name. -/
def dropLast (ix : PositionIndex) (name : String) : PositionIndex := ix.alter name withoutLast

end PositionIndex

/-- **A stack of named positions**, the top entry first. -/
structure NameStack where
  entries : List (String × Nat) := []
  index : PositionIndex := ∅

namespace NameStack

/-- Puts an entry on top. -/
def push (s : NameStack) (name : String) (position : Nat) : NameStack :=
  ⟨(name, position) :: s.entries, s.index.add name position⟩

/-- Takes the top entry. -/
def pop (s : NameStack) : Option ((String × Nat) × NameStack) :=
  match s.entries with
  | [] => none
  | (name, position) :: entries => some ((name, position), ⟨entries, s.index.dropLast name⟩)

/-- Takes entries from the top as long as their position is `target` or later. -/
def popEntries (target : Nat) : List (String × Nat) → PositionIndex → NameStack
  | [], index => ⟨[], index⟩
  | (name, position) :: entries, index =>
    if position < target then ⟨(name, position) :: entries, index⟩
    else popEntries target entries (index.dropLast name)

/-- Takes all entries on top whose position is `target` or later. -/
def popFrom (s : NameStack) (target : Nat) : NameStack := popEntries target s.entries s.index

/-- The top entry. -/
def top? (s : NameStack) : Option (String × Nat) := s.entries.head?

/-- The number of entries. -/
def size (s : NameStack) : Nat := s.entries.length

/-- The names of the entries, the lowest first. -/
def names (s : NameStack) : List String := s.entries.reverse.map (·.1)

/-- The positions of a name, in the order in which they were added. -/
def positions (s : NameStack) (name : String) : List Nat := (s.index.getD name []).reverse

/-- The position of the last entry with a name. -/
def lastPosition (s : NameStack) (name : String) : Option Nat :=
  s.index[name]?.bind List.head?

end NameStack

end PortableSql
