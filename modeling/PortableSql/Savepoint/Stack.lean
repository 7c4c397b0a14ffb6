import PortableSql.Savepoint.NameStack

/-!
# Savepoints

* **`SavepointStack`**: the live savepoints of a transaction.
* `SavepointStack.Step`, `Answer`, `SavepointStack.step`: the operations as data, each with its
  answer and the stack after it.
-/

namespace PortableSql

/-- **The live savepoints**, each at its depth. -/
structure SavepointStack where
  stack : NameStack := {}

/-- What an operation on savepoints answers. -/
inductive Answer where
  | done
  | position (p : Option Nat)
  | name (n : String)
  | failed (e : Underflow)
  deriving Repr, DecidableEq

namespace SavepointStack

/-- Sets a savepoint; the answer is its position. -/
def push (s : SavepointStack) (name : String) : Nat × SavepointStack :=
  (s.stack.size, ⟨s.stack.push name s.stack.size⟩)

/-- Removes the innermost savepoint; the answer is its name. -/
def pop (s : SavepointStack) : Except Underflow (String × SavepointStack) :=
  match s.stack.pop with
  | none => .error .underflow
  | some ((name, _), rest) => .ok (name, ⟨rest⟩)

/-- The position of the innermost savepoint with a name. -/
def position (s : SavepointStack) (name : String) : Option Nat := s.stack.lastPosition name

/-- The names of the live savepoints, outermost first. -/
def names (s : SavepointStack) : List String := s.stack.names

/-- The number of live savepoints. -/
def size (s : SavepointStack) : Nat := s.stack.size

/-- No savepoint is live. -/
def isEmpty (s : SavepointStack) : Bool := s.size == 0

/-- An operation on the savepoints. -/
inductive Step where
  | push (name : String)
  | pop
  | position (name : String)
  | reset
  deriving Repr, DecidableEq

/-- **Performs an operation**; one that fails changes nothing. -/
def step (s : SavepointStack) : Step → Answer × SavepointStack
  | .push name => let (p, t) := s.push name; (.position (some p), t)
  | .pop => match s.pop with
    | .ok (name, t) => (.name name, t)
    | .error e => (.failed e, s)
  | .position name => (.position (s.position name), s)
  | .reset => (.done, {})

end SavepointStack

end PortableSql
