import PortableSql.Parameter.Node

/-!
# Parameter documents

The values of a template are given as two JSON texts, a list of positional nodes and a record of
named ones; either may be absent.

* `ParameterError`: what is wrong with them, with `ParameterError.message`.
* **`Expression.ofDocuments`**: the template with its values. The positional document is read to
  its end before the named one is looked at.
-/

namespace PortableSql

/-- What is wrong with the parameters of a template. -/
inductive ParameterError where
  | invalidPositional
  | positionalNotList
  | invalidNamed
  | namedNotRecord
  | node (e : NodeError)
  deriving Repr, DecidableEq

/-- The wording of the error. -/
def ParameterError.message : ParameterError → String
  | .invalidPositional => "invalid --params document"
  | .positionalNotList => "--params must be a JSON array"
  | .invalidNamed => "invalid --named document"
  | .namedNotRecord => "--named must be a JSON object"
  | .node e => e.message

/-- The values of a document of positional nodes. -/
def positionalDocument (text : String) : Except ParameterError (List Value) :=
  match Json.parse? text with
  | none => .error .invalidPositional
  | some (.list items) => (valuesOf items).mapError .node
  | some _ => .error .positionalNotList

/-- The values of a document of named nodes. -/
def namedDocument (text : String) : Except ParameterError (List (String × Value)) :=
  match Json.parse? text with
  | none => .error .invalidNamed
  | some (.record members) => (namedOf members).mapError .node
  | some _ => .error .namedNotRecord

/-- What a document gives, or nothing if there is none. -/
def fromDocument {α : Type} (read : String → Except ParameterError (List α)) :
    Option String → Except ParameterError (List α)
  | none => .ok []
  | some text => read text

/-- **A template with the values of its documents.** -/
def Expression.ofDocuments (template : String) (positional named : Option String) :
    Except ParameterError Expression := do
  let values ← fromDocument positionalDocument positional
  let namedValues ← fromDocument namedDocument named
  return (Expression.withParameters template values).bindAll namedValues

end PortableSql
