import PortableSql.Json.Basic
import PortableSql.Value

/-!
# Parameter nodes

A value is given as JSON: scalars and lists stand for themselves, and a record with one tag for a
name, a raw text or an expression.

* `NodeError`: what is wrong with a node, with `NodeError.message`.
* **`Value.ofJson`**: the value of a node. The first fault counts, in the order in which a node is
  read: tag, body, template, positional values, named values.
-/

namespace PortableSql

/-- What is wrong with a node. -/
inductive NodeError where
  | notOneTag
  | expectsString (tag : String)
  | expressionNotRecord
  | noTemplate
  | parametersNotList
  | namedNotRecord
  | unknownTag (tag : String)
  deriving Repr, DecidableEq

/-- The wording of the error. -/
def NodeError.message : NodeError → String
  | .notOneTag => "node objects take exactly one tag key"
  | .expectsString tag => "'" ++ tag ++ "' expects a string"
  | .expressionNotRecord => "'expression' expects an object"
  | .noTemplate => "'expression' needs a string 'template'"
  | .parametersNotList => "'params' must be an array"
  | .namedNotRecord => "'named' must be an object"
  | .unknownTag tag => "unknown node tag '" ++ tag ++ "'"

/-- The literal of a number. -/
def Literal.ofNumber : Json.Number → Literal
  | .int n => .int n
  | .float x => .float x.val

/-- The value of a tag whose body is a text. -/
def Value.ofText (tag text : String) : Except NodeError Value :=
  if tag = "table" then .ok (.table (.dotted text))
  else if tag = "column" then .ok (.column (.dotted text))
  else if tag = "identifier" then .ok (.identifier (.dotted text))
  else if tag = "raw" then .ok (.expression (.raw text))
  else .error (.unknownTag tag)

/-- The tags whose body is a text. -/
def textTags : List String := ["table", "column", "identifier", "raw"]

/-- The template among the fields of an expression. -/
def templateOf (fields : List (String × Json)) : Except NodeError String :=
  match fields.lookup "template" with
  | some (.string s) => .ok s
  | _ => .error .noTemplate

/-- Named values in the order in which they are bound. -/
def Expression.bindAll (e : Expression) (named : List (String × Value)) : Expression :=
  named.foldl (fun e (name, v) => e.bindNamed name v) e

mutual

/-- **The value of a node.** -/
def Value.ofJson : Json → Except NodeError Value
  | .null => .ok (.literal .null)
  | .bool b => .ok (.literal (.bool b))
  | .number n => .ok (.literal (.ofNumber n))
  | .string s => .ok (.text s)
  | .list items => do return .sequence (← valuesOf items)
  | .record members => taggedOf members

/-- The values of nodes, in order. -/
def valuesOf : List Json → Except NodeError (List Value)
  | [] => .ok []
  | j :: js => do
    let v ← Value.ofJson j
    return v :: (← valuesOf js)

/-- The values of named nodes, in order. -/
def namedOf : List (String × Json) → Except NodeError (List (String × Value))
  | [] => .ok []
  | (name, j) :: js => do
    let v ← Value.ofJson j
    return (name, v) :: (← namedOf js)

/-- The value of a record with one tag. -/
def taggedOf : List (String × Json) → Except NodeError Value
  | [(tag, body)] =>
    if tag = "expression" then do return .expression (← expressionOf body)
    else match body with
      | .string s => Value.ofText tag s
      | _ => if textTags.contains tag then .error (.expectsString tag) else .error (.unknownTag tag)
  | _ => .error .notOneTag

/-- The expression of the body of its tag. -/
def expressionOf : Json → Except NodeError Expression
  | .record fields => do
    let template ← templateOf fields
    let positional ← positionalOf fields
    let named ← namedFieldOf fields
    return (Expression.withParameters template positional).bindAll named
  | _ => .error .expressionNotRecord

/-- The positional values among the fields of an expression. -/
def positionalOf : List (String × Json) → Except NodeError (List Value)
  | [] => .ok []
  | (field, j) :: rest => if field = "params" then listOf j else positionalOf rest

/-- The values of a list of nodes. -/
def listOf : Json → Except NodeError (List Value)
  | .list items => valuesOf items
  | _ => .error .parametersNotList

/-- The named values among the fields of an expression. -/
def namedFieldOf : List (String × Json) → Except NodeError (List (String × Value))
  | [] => .ok []
  | (field, j) :: rest => if field = "named" then recordOf j else namedFieldOf rest

/-- The values of a record of nodes. -/
def recordOf : Json → Except NodeError (List (String × Value))
  | .record members => namedOf members
  | _ => .error .namedNotRecord

end

end PortableSql
