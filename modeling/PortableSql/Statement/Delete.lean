import PortableSql.Statement.Clause

/-!
# Deletions

* **`Delete`**: the rows to delete from a table; `Delete.toExpression`: the statement.
* `Delete.Call`, `Delete.call`; **`Delete.built`**: the calls that build a deletion.
-/

namespace PortableSql

/-- **A deletion from a table.** -/
structure Delete where
  table : Value
  filter : Option Conditions := none
  orderBy : List OrderItem := []
  limit : Option Nat := none

namespace Delete

/-! ## Calls -/

/-- A call on a deletion. -/
inductive Call where
  | filter (c : Conditions)
  | orderBy (item : OrderItem)
  | limit (n : Nat)

/-- The deletion after a call. -/
def call (d : Delete) : Call → Delete
  | .filter c => { d with filter := some c }
  | .orderBy item => { d with orderBy := d.orderBy ++ [item] }
  | .limit n => { d with limit := some n }

/-- **The deletion that calls build.** -/
def built (table : Value) (calls : List Call) : Delete := calls.foldl call { table }

/-! ## The statement -/

/-- The clauses of the deletion, in the order in which they are written. -/
def clauses (d : Delete) : List Clause :=
  [.text "DELETE FROM", .slot " " "table" d.table]
    ++ Clause.filter d.filter ++ Clause.orderBy d.orderBy ++ Clause.limit d.limit

/-- **The deletion as an expression.** -/
def toExpression (d : Delete) : Expression := Clause.assemble d.clauses

/-- The deletion as a value. -/
def toValue (d : Delete) : Value := .expression d.toExpression

end Delete

end PortableSql
