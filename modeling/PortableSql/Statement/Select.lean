import PortableSql.Statement.Clause

/-!
# Queries

* **`Select`**: what a query asks for.
* `Select.Call`, `Select.call`; **`Select.built`**: the calls that build a query. A call adds to a
  list, or replaces what an earlier call has given.
* `Select.clauses`, `Select.toExpression`: its clauses in their order, and the query they make.
-/

namespace PortableSql

/-- **A query.** Without columns it asks for all of them. -/
structure Select where
  distinct : Bool := false
  columns : List Value := []
  source : Option Value := none
  filter : Option Conditions := none
  groupBy : List Value := []
  having : Option Conditions := none
  orderBy : List OrderItem := []
  limit : Option Nat := none
  offset : Option Nat := none

namespace Select

/-! ## Calls -/

/-- A call on a query. -/
inductive Call where
  | distinct
  | columns (names : List String)
  | column (v : Value)
  | columnAs (v : Value) (label : String)
  | source (v : Value)
  | filter (c : Conditions)
  | groupBy (names : List String)
  | having (c : Conditions)
  | orderBy (item : OrderItem)
  | limit (n : Nat)
  | offset (n : Nat)

/-- The query after a call. -/
def call (q : Select) : Call → Select
  | .distinct => { q with distinct := true }
  | .columns names => { q with columns := q.columns ++ Value.columns names }
  | .column v => { q with columns := q.columns ++ [v] }
  | .columnAs v label => { q with columns := q.columns ++ [v.aliased label] }
  | .source v => { q with source := some v }
  | .filter c => { q with filter := some c }
  | .groupBy names => { q with groupBy := q.groupBy ++ Value.columns names }
  | .having c => { q with having := some c }
  | .orderBy item => { q with orderBy := q.orderBy ++ [item] }
  | .limit n => { q with limit := some n }
  | .offset n => { q with offset := some n }

/-- **The query that calls build.** -/
def built (calls : List Call) : Select := calls.foldl call {}

/-! ## The statement -/

/-- The list of columns. -/
def columnClause : List Value → Clause
  | [] => .text "*"
  | columns => .slot "" "columns" (.sequence columns)

/-- The clauses of the query, in the order in which they are written. -/
def clauses (q : Select) : List Clause :=
  [.text "SELECT "] ++ (if q.distinct then [.text "DISTINCT "] else []) ++ [columnClause q.columns]
    ++ Clause.optional " FROM " "table" q.source
    ++ Clause.filter q.filter
    ++ Clause.list " GROUP BY " "groupby" q.groupBy
    ++ Clause.conditions " HAVING " "having" q.having
    ++ Clause.orderBy q.orderBy ++ Clause.limit q.limit ++ Clause.offset q.offset

/-- **The query as an expression.** -/
def toExpression (q : Select) : Expression := Clause.assemble q.clauses

/-- The query as a value. -/
def toValue (q : Select) : Value := .expression q.toExpression

end Select

end PortableSql
