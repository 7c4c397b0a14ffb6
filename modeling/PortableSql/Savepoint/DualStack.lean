import PortableSql.Savepoint.Stack

/-!
# Savepoints with commits

* **`DualStack`**: the live savepoints, and beside them those that are not yet committed.
* `DualStack.push`, `DualStack.commit`, `DualStack.commitTo`, `DualStack.pop`: a commit leaves the
  savepoint alive; removing an uncommitted one commits it first.
* `DualStack.Step`, `DualStack.step`: the operations as data.
-/

namespace PortableSql

/-- **Live and uncommitted savepoints.** -/
structure DualStack where
  full : NameStack := {}
  uncommitted : NameStack := {}

namespace DualStack

/-- Sets a savepoint, which is uncommitted; the answer is its position. -/
def push (s : DualStack) (name : String) : Nat × DualStack :=
  let position := s.full.size
  (position, ⟨s.full.push name position, s.uncommitted.push name position⟩)

/-- Commits the innermost uncommitted savepoint; the answer is its name. -/
def commit (s : DualStack) : Except Underflow (String × DualStack) :=
  match s.uncommitted.pop with
  | none => .error .underflow
  | some ((name, _), rest) => .ok (name, { s with uncommitted := rest })

/-- Commits the innermost uncommitted savepoint with a name and all inside it; the answer is its
position, and nothing if there is none. -/
def commitTo (s : DualStack) (name : String) : Option (Nat × DualStack) :=
  (s.uncommitted.lastPosition name).map fun target =>
    (target, { s with uncommitted := s.uncommitted.popFrom target })

/-- **Removes the innermost savepoint**, and commits it if it is uncommitted; the answer is its
name. -/
def pop (s : DualStack) : Except Underflow (String × DualStack) :=
  match s.full.pop with
  | none => .error .underflow
  | some ((name, position), rest) =>
    if s.uncommitted.lastPosition name = some position then do
      let (_, t) ← s.commit
      return (name, { t with full := rest })
    else .ok (name, { s with full := rest })

/-- The position of the innermost savepoint with a name. -/
def position (s : DualStack) (name : String) : Option Nat := s.full.lastPosition name

/-- The position of the innermost uncommitted savepoint with a name. -/
def uncommittedPosition (s : DualStack) (name : String) : Option Nat :=
  s.uncommitted.lastPosition name

/-- The positions of all savepoints with a name. -/
def fullPositions (s : DualStack) (name : String) : List Nat := s.full.positions name

/-- The positions of the uncommitted savepoints with a name. -/
def uncommittedPositions (s : DualStack) (name : String) : List Nat := s.uncommitted.positions name

/-- The number of uncommitted savepoints. -/
def uncommittedCount (s : DualStack) : Nat := s.uncommitted.size

/-- The names of the live savepoints, outermost first. -/
def names (s : DualStack) : List String := s.full.names

/-- The number of live savepoints. -/
def size (s : DualStack) : Nat := s.full.size

/-- No savepoint is live. -/
def isEmpty (s : DualStack) : Bool := s.size == 0

/-- An operation on the savepoints. -/
inductive Step where
  | push (name : String)
  | pop
  | commit
  | commitTo (name : String)
  | position (name : String)
  | uncommittedPosition (name : String)
  | reset
  deriving Repr, DecidableEq

/-- The answer to an operation that gives a name, and the stack after it. -/
def ofResult (s : DualStack) : Except Underflow (String × DualStack) → Answer × DualStack
  | .ok (name, t) => (.name name, t)
  | .error e => (.failed e, s)

/-- **Performs an operation**; one that fails changes nothing. -/
def step (s : DualStack) : Step → Answer × DualStack
  | .push name => let (p, t) := s.push name; (.position (some p), t)
  | .pop => s.ofResult s.pop
  | .commit => s.ofResult s.commit
  | .commitTo name => match s.commitTo name with
    | some (p, t) => (.position (some p), t)
    | none => (.position none, s)
  | .position name => (.position (s.position name), s)
  | .uncommittedPosition name => (.position (s.uncommittedPosition name), s)
  | .reset => (.done, {})

end DualStack

end PortableSql
