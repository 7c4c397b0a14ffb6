import PortableSql.Statement.Clause

/-!
# Updates

* `Update.Assignment`, **`Update`**: new values for columns of the rows of a table.
* `Update.Call`, `Update.call`; **`Update.built`**: the calls that build an update. A call adds to a
  list, or replaces what an earlier call has given.
* `Update.toExpression`: the statement.
-/

namespace PortableSql

/-- A new value for a column. -/
structure Update.Assignment where
  column : Name
  value : Value

/-- **An update of a table.** -/
structure Update where
  table : Value
  assignments : List Update.Assignment := []
  filter : Option Conditions := none
  orderBy : List OrderItem := []
  limit : Option Nat := none

namespace Update

/-! ## Calls -/

/-- A call on an update. -/
inductive Call where
  | set (column : String) (v : Value)
  | setColumn (column : Name) (v : Value)
  | filter (c : Conditions)
  | orderBy (item : OrderItem)
  | limit (n : Nat)

/-- The update after a call. -/
def call (u : Update) : Call → Update
  | .set column v => { u with assignments := u.assignments ++ [⟨.dotted column, v⟩] }
  | .setColumn column v => { u with assignments := u.assignments ++ [⟨column, v⟩] }
  | .filter c => { u with filter := some c }
  | .orderBy item => { u with orderBy := u.orderBy ++ [item] }
  | .limit n => { u with limit := some n }

/-- **The update that calls build.** -/
def built (table : Value) (calls : List Call) : Update := calls.foldl call { table }

/-! ## The statement -/

/-- `column = value`. -/
def Assignment.toValue (a : Assignment) : Value :=
  .expression (.withParameters "? = ?" [.column a.column, a.value])

/-- The clauses of the update, in the order in which they are written. -/
def clauses (u : Update) : List Clause :=
  [.text "UPDATE", .slot " " "table" u.table]
    ++ Clause.list " SET " "set" (u.assignments.map Assignment.toValue)
    ++ Clause.filter u.filter ++ Clause.orderBy u.orderBy ++ Clause.limit u.limit

/-- **The update as an expression.** -/
def toExpression (u : Update) : Expression := Clause.assemble u.clauses

/-- The update as a value. -/
def toValue (u : Update) : Value := .expression u.toExpression

end Update

end PortableSql
