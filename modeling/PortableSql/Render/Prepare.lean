import PortableSql.Render.Fill
import PortableSql.Render.Literal
import PortableSql.Value

/-!
# Preparing

A value is prepared as SQL text in which every literal is a placeholder of the engine, together
with the list of those literals.

* `Binding`: an action that may bind further literals.
* `Value.binding`, `Expression.binding`: the action of a value and of an expression. Names and
  templates are written as in compiled text; nested expressions are expanded in place.
* `Prepared`, **`Value.prepare`**: the text and the literals to bind, in the order of placeholders.
-/

namespace PortableSql

/-- An action that writes text and binds literals after those bound so far. -/
abbrev Binding := StateT (Array Literal) (Except RenderError)

/-- Binds one more literal and writes its placeholder. -/
def bindLiteral (d : Dialect) (l : Literal) : Binding String := do
  let bound ← get
  set (bound.push l)
  return d.placeholder (bound.size + 1)

mutual

/-- The action of a value. -/
def Value.binding (d : Dialect) : Value → Binding String
  | .literal l => bindLiteral d l
  | .identifier n => pure (d.identifierText n)
  | .column n => pure (d.columnText n)
  | .table n => pure (d.tableText n)
  | .sequence items => do return Text.joinFilled ", " (← inOrder (bindingAll d items))
  | .expression e => e.binding d

/-- The action of an expression. -/
def Expression.binding (d : Dialect) : Expression → Binding String
  | ⟨template, positional, named⟩ =>
    if positional.isEmpty && named.isEmpty then pure template
    else fill template (bindingAll d positional) (bindingNamed d named)

/-- The action of each value. -/
def bindingAll (d : Dialect) : List Value → List (Binding String)
  | [] => []
  | v :: vs => v.binding d :: bindingAll d vs

/-- The action of each named value, under its token. -/
def bindingNamed (d : Dialect) : List (String × Value) → List (String × Binding String)
  | [] => []
  | (token, v) :: vs => (token, v.binding d) :: bindingNamed d vs

end

/-- A statement text and the literals to bind to its placeholders. -/
structure Prepared where
  sql : String
  binds : List Literal

/-- **The value as a prepared statement.** -/
def Value.prepare (d : Dialect) (v : Value) : Except RenderError Prepared := do
  let (sql, bound) ← (v.binding d).run #[]
  return ⟨sql, bound.toList⟩

end PortableSql
