import PortableSql.Conditions
import PortableSql.Text.Join

/-!
# Tables to select from

* `Join`: the kinds of joins.
* `Expression.linked`: a first value with others linked to it, each by a text of its own.
* `FromClause.Part`, **`FromClause`**: a first table, and what follows it in order.
* `FromClause.Call`, `FromClause.call`; **`FromClause.built`**: the calls that build one.
* `FromClause.toExpression`: the clause as an expression.
-/

namespace PortableSql

/-- The kind of a join. -/
inductive Join where
  | inner | left | right | full | cross
  deriving Repr, DecidableEq

/-- The keywords of the join. -/
def Join.keyword : Join → String
  | .inner => "INNER JOIN"
  | .left => "LEFT JOIN"
  | .right => "RIGHT JOIN"
  | .full => "FULL JOIN"
  | .cross => "CROSS JOIN"

/-- A value with further values linked to it; the text of a link holds the placeholder. -/
def Expression.linked (first : Value) (links : List (String × Value)) : Expression :=
  .withParameters ("?" ++ Text.join "" (links.map (·.1))) (first :: links.map (·.2))

/-- What may follow the first table. -/
inductive FromClause.Part where
  | table (v : Value)
  | joined (kind : Join) (v : Value)
  | on (c : Conditions)
  | using (columns : List String)

/-- **Tables in a list or joined to each other.** -/
structure FromClause where
  first : Value
  parts : List FromClause.Part := []

namespace FromClause

/-! ## Calls -/

/-- The clause with one more part. -/
def push (f : FromClause) (p : Part) : FromClause := { f with parts := f.parts ++ [p] }

/-- A call on the tables to select from. -/
inductive Call where
  | add (v : Value)
  | addAs (v : Value) (label : String)
  | join (kind : Join) (v : Value)
  | joinAs (kind : Join) (v : Value) (label : String)
  | on (c : Conditions)
  | using (names : List String)

/-- The tables after a call. -/
def call (f : FromClause) : Call → FromClause
  | .add v => f.push (.table v)
  | .addAs v label => f.push (.table (v.aliased label))
  | .join kind v => f.push (.joined kind v)
  | .joinAs kind v label => f.push (.joined kind (v.aliased label))
  | .on c => f.push (.on c)
  | .using names => f.push (.using names)

/-- **The tables that calls build.** -/
def built (first : Value) (calls : List Call) : FromClause := calls.foldl call { first }

/-! ## The clause -/

/-- The text and the value of a part. -/
def Part.link : Part → String × Value
  | .table v => (", ?", v)
  | .joined kind v => (" " ++ kind.keyword ++ " ?", v)
  | .on c => (" ON ?", c.toValue)
  | .using columns => (" USING (?)", .sequence (Value.columns columns))

/-- **The clause as an expression.** -/
def toExpression (f : FromClause) : Expression := .linked f.first (f.parts.map Part.link)

/-- The clause as a value. -/
def toValue (f : FromClause) : Value := .expression f.toExpression

end FromClause

end PortableSql
