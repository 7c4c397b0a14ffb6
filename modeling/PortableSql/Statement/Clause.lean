import PortableSql.Conditions
import PortableSql.Text.Join

/-!
# Clauses

A statement is assembled from clauses: texts, and slots whose content is a named value.

* **`Clause`**, `Clause.sql`; `Clause.assemble`: clauses in order, as one expression.
* `Direction`, `OrderItem`: the items of `ORDER BY`.
* `Clause.list`, `Clause.conditions`, `Clause.count`: clauses that are left out without content.
-/

namespace PortableSql

/-- **A part of a statement**: text, or a named slot after a text. -/
inductive Clause where
  | text (sql : String)
  | slot (lead name : String) (content : Value)

namespace Clause

/-- What the clause adds to the template. -/
def sql : Clause → String
  | .text s => s
  | .slot lead name _ => lead ++ ":" ++ name

/-- Binds the content of a slot. -/
def bindSlot (e : Expression) : Clause → Expression
  | .text _ => e
  | .slot _ name content => e.bindNamed name content

/-- **The statement of clauses in order.** -/
def assemble (clauses : List Clause) : Expression :=
  clauses.foldl bindSlot (.raw (Text.join "" (clauses.map sql)))

end Clause

/-! ## Items of an order -/

/-- The direction of sorting. -/
inductive Direction where
  | ascending | descending
  deriving Repr, DecidableEq

/-- The keyword of the direction. -/
def Direction.keyword : Direction → String
  | .ascending => "ASC"
  | .descending => "DESC"

/-- An item of `ORDER BY`. -/
structure OrderItem where
  value : Value
  direction : Direction := .ascending

/-- The item as a value. -/
def OrderItem.toValue (o : OrderItem) : Value :=
  .expression (.withParameters ("? " ++ o.direction.keyword) [o.value])

namespace Clause

/-! ## Clauses that may be absent -/

/-- A slot for a value, if there is one. -/
def optional (lead name : String) : Option Value → List Clause
  | none => []
  | some v => [.slot lead name v]

/-- A slot for a list, unless it is empty. -/
def list (lead name : String) : List Value → List Clause
  | [] => []
  | items => [.slot lead name (.sequence items)]

/-- A slot for conditions, unless there are none. -/
def conditions (lead name : String) : Option Conditions → List Clause
  | none => []
  | some c => if c.isEmpty then [] else [.slot lead name c.toValue]

/-- The literal of a count, at most the greatest 64-bit integer. -/
def countValue (n : Nat) : Value := .literal (.int (Int64.ofNat (min n (Nat.pow 2 63 - 1))))

/-- A slot for a count, if there is one. -/
def count (lead name : String) (n : Option Nat) : List Clause :=
  optional lead name (n.map countValue)

/-- `WHERE`. -/
def filter (c : Option Conditions) : List Clause := conditions " WHERE " "where" c

/-- `ORDER BY`. -/
def orderBy (items : List OrderItem) : List Clause :=
  list " ORDER BY " "orderby" (items.map OrderItem.toValue)

/-- `LIMIT`. -/
def limit (n : Option Nat) : List Clause := count " LIMIT " "limit" n

/-- `OFFSET`. -/
def offset (n : Option Nat) : List Clause := count " OFFSET " "offset" n

end Clause

end PortableSql
