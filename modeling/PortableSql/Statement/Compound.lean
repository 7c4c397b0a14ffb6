import PortableSql.FromClause
import PortableSql.Statement.Clause

/-!
# Compound queries

* `Combination`: the set operators.
* **`Compound`**: queries combined from left to right, with an order and limits of their own.
* `Compound.Call`, `Compound.call`; **`Compound.built`**: the calls that build one.
* `Compound.toExpression`: the query.
-/

namespace PortableSql

/-- A set operator. -/
inductive Combination where
  | union | intersect | except
  deriving Repr, DecidableEq

/-- The keyword of the operator. -/
def Combination.keyword : Combination → String
  | .union => "UNION"
  | .intersect => "INTERSECT"
  | .except => "EXCEPT"

/-- A query with the operator before it; `all` keeps duplicates. -/
structure Compound.Operand where
  operator : Combination
  all : Bool
  query : Value

/-- **Queries combined from left to right.** -/
structure Compound where
  first : Value
  operands : List Compound.Operand := []
  orderBy : List OrderItem := []
  limit : Option Nat := none
  offset : Option Nat := none

namespace Compound

/-! ## Calls -/

/-- A call on a compound query. -/
inductive Call where
  | combine (o : Operand)
  | orderBy (item : OrderItem)
  | limit (n : Nat)
  | offset (n : Nat)

/-- The compound query after a call. -/
def call (c : Compound) : Call → Compound
  | .combine o => { c with operands := c.operands ++ [o] }
  | .orderBy item => { c with orderBy := c.orderBy ++ [item] }
  | .limit n => { c with limit := some n }
  | .offset n => { c with offset := some n }

/-- **The compound query that calls build.** -/
def built (first : Value) (calls : List Call) : Compound := calls.foldl call { first }

/-! ## The statement -/

/-- The text and the value of an operand. -/
def Operand.link (o : Operand) : String × Value :=
  (" " ++ o.operator.keyword ++ (if o.all then " ALL" else "") ++ " ?", o.query)

/-- The combined queries. -/
def queries (c : Compound) : Expression := .linked c.first (c.operands.map Operand.link)

/-- The clauses of the query, in the order in which they are written. -/
def clauses (c : Compound) : List Clause :=
  [.slot "" "queries" (.expression c.queries)]
    ++ Clause.orderBy c.orderBy ++ Clause.limit c.limit ++ Clause.offset c.offset

/-- **The query as an expression.** -/
def toExpression (c : Compound) : Expression := Clause.assemble c.clauses

/-- The query as a value. -/
def toValue (c : Compound) : Value := .expression c.toExpression

end Compound

end PortableSql
