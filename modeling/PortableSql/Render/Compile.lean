import PortableSql.Render.Fill
import PortableSql.Render.Literal
import PortableSql.Value

/-!
# Compiling

A value is compiled to SQL text in which every literal is written out.

* `Value.compile`, `Expression.compile`: the text of a value and of an expression. An expression
  without parameters is its template as it stands. The items of a sequence are joined by commas,
  without those that are empty.
* `compileAll`, `compileNamed`: the outcomes of several values.
-/

namespace PortableSql

mutual

/-- **The SQL text of a value.** -/
def Value.compile (d : Dialect) : Value → Except RenderError String
  | .literal l => d.quoteLiteral l
  | .identifier n => .ok (d.identifierText n)
  | .column n => .ok (d.columnText n)
  | .table n => .ok (d.tableText n)
  | .sequence items => do return Text.joinFilled ", " (← inOrder (compileAll d items))
  | .expression e => e.compile d

/-- The SQL text of an expression. -/
def Expression.compile (d : Dialect) : Expression → Except RenderError String
  | ⟨template, positional, named⟩ =>
    if positional.isEmpty && named.isEmpty then .ok template
    else fill template (compileAll d positional) (compileNamed d named)

/-- The outcome for each value. -/
def compileAll (d : Dialect) : List Value → List (Except RenderError String)
  | [] => []
  | v :: vs => v.compile d :: compileAll d vs

/-- The outcome for each named value, under its token. -/
def compileNamed (d : Dialect) : List (String × Value) → List (String × Except RenderError String)
  | [] => []
  | (token, v) :: vs => (token, v.compile d) :: compileNamed d vs

end

end PortableSql
