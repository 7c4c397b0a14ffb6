import PortableSql.Statement.Select

/-!
# Insertions

* `Insert.Source`, **`Insert`**: rows of values, or the rows of a query, for a table.
* `Insert.addRow`, `Insert.fromQuery`: the later of rows and query replaces the other.
* `Insert.Call`, `Insert.call`; **`Insert.built`**: the calls that build an insertion.
* `Insert.toExpression`: the statement.
-/

namespace PortableSql

/-- Where the rows come from. -/
inductive Insert.Source where
  | rows (rows : List (List Value))
  | query (q : Select)

/-- **An insertion into a table.** -/
structure Insert where
  table : Value
  columns : List Value := []
  source : Insert.Source := .rows []

namespace Insert

/-! ## Calls -/

/-- Adds a row; rows take the place of a query. -/
def addRow (i : Insert) (row : List Value) : Insert :=
  match i.source with
  | .rows rows => { i with source := .rows (rows ++ [row]) }
  | .query _ => { i with source := .rows [row] }

/-- Inserts the rows of a query in place of any given so far. -/
def fromQuery (i : Insert) (q : Select) : Insert := { i with source := .query q }

/-- A call on an insertion; a query is given by the calls that build it. -/
inductive Call where
  | columns (names : List String)
  | row (values : List Value)
  | query (calls : List Select.Call)

/-- The insertion after a call. -/
def call (i : Insert) : Call → Insert
  | .columns names => { i with columns := i.columns ++ Value.columns names }
  | .row values => i.addRow values
  | .query calls => i.fromQuery (Select.built calls)

/-- **The insertion that calls build.** -/
def built (table : Value) (calls : List Call) : Insert := calls.foldl call { table }

/-! ## The statement -/

/-- A row in parentheses. -/
def rowValue (row : List Value) : Value := .expression (.withParameters "(?)" [.sequence row])

/-- The list of columns, in parentheses, if there is one. -/
def columnClauses : List Value → List Clause
  | [] => []
  | columns => [.text " (", .slot "" "columns" (.sequence columns), .text ")"]

/-- The clause of the rows. -/
def Source.clause : Source → Clause
  | .query q => .slot " " "select" q.toValue
  | .rows [] => .text " DEFAULT VALUES"
  | .rows given => .slot " VALUES " "values" (.sequence (given.map rowValue))

/-- The clauses of the insertion, in the order in which they are written. -/
def clauses (i : Insert) : List Clause :=
  [.text "INSERT INTO", .slot " " "table" i.table] ++ columnClauses i.columns ++ [i.source.clause]

/-- **The insertion as an expression.** -/
def toExpression (i : Insert) : Expression := Clause.assemble i.clauses

/-- The insertion as a value. -/
def toValue (i : Insert) : Value := .expression i.toExpression

end Insert

end PortableSql
