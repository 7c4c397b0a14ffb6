import PortableSql.Text.Bytes
import PortableSql.Text.Keyword
import PortableSql.Value

/-!
# Chains of conditions

A chain is built from left to right: predicates and nested chains joined by connectives, and groups
in parentheses. The template is kept as one text; a group remembers where the template ended when
it was opened, so that an empty group can be taken back.

* `Conditions.Group`, **`Conditions`**.
* `Conditions.predicateText`, `Conditions.predicateOperands`: the template of one predicate and the
  values of its placeholders.
* `Conditions.add`, `Conditions.addValue`, `Conditions.openGroup`, `Conditions.closeGroup`,
  `Conditions.closeEmpty`, and shorthands.
* `Conditions.Step`, `Conditions.run`: the same as data.
* **`Conditions.toExpression`**: the chain with its open groups closed.
-/

namespace PortableSql

/-- An open group: the bytes of the template before it, and whether an item was due there. -/
structure Conditions.Group where
  mark : Nat
  wasFresh : Bool
  deriving Repr, DecidableEq

/-- **A chain under construction.** -/
structure Conditions where
  template : String := ""
  operands : List Value := []
  /-- No item stands before the next one in its group, so that it takes no connective. -/
  fresh : Bool := true
  /-- The open groups, innermost first. -/
  groups : List Conditions.Group := []

namespace Conditions

/-- The chain without items. -/
def empty : Conditions := {}

/-! ## Predicates -/

/-- The items of a sequence; any other value stands for itself. -/
def spread : Value → List Value
  | .sequence items => items
  | v => [v]

/-- The template of a predicate with a written operator. -/
def predicateText (operator : String) : String :=
  if operator = "" then "?"
  else if operator = "IN" ∨ operator = "NOT IN" then "? " ++ operator ++ " (?)"
  else if operator = "BETWEEN" ∨ operator = "NOT BETWEEN" then "? " ++ operator ++ " ? AND ?"
  else "? " ++ operator ++ " ?"

/-- The values of its placeholders: without an operator there is no right side, and bounds are
given as a sequence. -/
def predicateOperands (operator : String) (left right : Value) : List Value :=
  if operator = "" then [left]
  else if operator = "BETWEEN" ∨ operator = "NOT BETWEEN" then left :: spread right
  else [left, right]

/-! ## Building a chain -/

/-- Writes a text and supplies the values of its placeholders. -/
def push (c : Conditions) (text : String) (operands : List Value) : Conditions :=
  { c with template := c.template ++ text, operands := c.operands ++ operands }

/-- Writes the connective that the next item needs. -/
def connect (c : Conditions) (logic : String) : Conditions :=
  let c := if c.fresh then c else c.push (" " ++ Text.keyword logic ++ " ") []
  { c with fresh := false }

/-- **Adds a predicate.** -/
def add (c : Conditions) (logic : String) (left : Value) (operator : String) (right : Value) :
    Conditions :=
  let operator := Text.keyword operator
  (c.connect logic).push (predicateText operator) (predicateOperands operator left right)

/-- Adds a value, such as another chain, as an item of its own. -/
def addValue (c : Conditions) (logic : String) (item : Value) : Conditions :=
  (c.connect logic).push "?" [item]

/-- **Opens a group.** -/
def openGroup (c : Conditions) (logic : String) : Conditions :=
  let group : Group := ⟨c.template.utf8ByteSize, c.fresh⟩
  let opened := (c.connect logic).push "(" []
  { opened with fresh := true, groups := group :: c.groups }

/-- **Closes the innermost group**; without one nothing happens. -/
def closeGroup (c : Conditions) : Conditions :=
  match c.groups with
  | [] => c
  | _ :: groups => { c.push ")" [] with fresh := false, groups := groups }

/-- **Closes the innermost group, or takes it back if nothing has been added to it.** -/
def closeEmpty (c : Conditions) : Conditions :=
  if c.fresh then
    match c.groups with
    | [] => c
    | group :: groups =>
      { c with
        template := Text.takeBytes group.mark c.template
        fresh := group.wasFresh
        groups := groups }
  else c.closeGroup

/-! ## Shorthands -/

/-- Adds a predicate after `AND`. -/
def and (c : Conditions) (left : Value) (operator : String) (right : Value) : Conditions :=
  c.add "and" left operator right

/-- Adds a predicate after `OR`. -/
def or (c : Conditions) (left : Value) (operator : String) (right : Value) : Conditions :=
  c.add "or" left operator right

/-- Adds a value after `AND`. -/
def andValue (c : Conditions) (item : Value) : Conditions := c.addValue "and" item

/-- Adds a value after `OR`. -/
def orValue (c : Conditions) (item : Value) : Conditions := c.addValue "or" item

/-- Adds a membership test after `AND`. -/
def andIn (c : Conditions) (left : Value) (values : List Value) : Conditions :=
  c.and left "IN" (.sequence values)

/-- Adds a range test after `AND`. -/
def andBetween (c : Conditions) (left low high : Value) : Conditions :=
  c.and left "BETWEEN" (.sequence [low, high])

/-- The chain of one predicate. -/
def predicate (left : Value) (operator : String) (right : Value) : Conditions :=
  empty.and left operator right

/-! ## Steps as data -/

/-- One step of building a chain. -/
inductive Step where
  | add (logic : String) (left : Value) (operator : String) (right : Value)
  | addValue (logic : String) (item : Value)
  | openGroup (logic : String)
  | closeGroup
  | closeEmpty

/-- The chain after one more step. -/
def step (c : Conditions) : Step → Conditions
  | .add logic left operator right => c.add logic left operator right
  | .addValue logic item => c.addValue logic item
  | .openGroup logic => c.openGroup logic
  | .closeGroup => c.closeGroup
  | .closeEmpty => c.closeEmpty

/-- The chain after steps in order. -/
def run (c : Conditions) (steps : List Step) : Conditions := steps.foldl step c

/-! ## Views -/

/-- Nothing has been written. -/
def isEmpty (c : Conditions) : Bool := c.operands.isEmpty && c.template = ""

/-- The number of open groups. -/
def depth (c : Conditions) : Nat := c.groups.length

/-- **The chain as an expression**, with a parenthesis for every group that is still open. -/
def toExpression (c : Conditions) : Expression :=
  .withParameters (c.template ++ String.ofList (List.replicate c.depth ')')) c.operands

/-- The chain as a value. -/
def toValue (c : Conditions) : Value := .expression c.toExpression

end Conditions

end PortableSql
