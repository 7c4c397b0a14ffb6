import Mathlib.Data.List.Induction
import PortableSql.FromClause
import PortableSql.Statement.Compound
import PortableSql.Statement.Delete
import PortableSql.Statement.Insert
import PortableSql.Statement.Update

/-!
# What calls ask for

Statements are built by calls in any order. Each part of a statement depends on the calls that
concern it alone: on all of them in their order, or on the last one.

* `Select.Call.addedColumns`, `Select.Call.filter?` and their kin: what a call says about a part.
* **`Select.asked`** and its kin: each part of the statement in terms of the calls that concern it.
* `Insert.lastRows`, `Insert.lastQuery?`: the rows after the last query, and that query.
* **`Select.built_eq_asked`** and its kin: calls build what they ask for.
-/

namespace PortableSql

/-! ## Queries -/

namespace Select

namespace Call

/-- The call asks for distinct rows. -/
def isDistinct : Call → Bool
  | .distinct => true
  | _ => false

/-- The columns that a call adds. -/
def addedColumns : Call → List Value
  | .columns names => names.map fun n => .column (.dotted n)
  | .column v => [v]
  | .columnAs v label => [v.aliased label]
  | _ => []

/-- The source that a call gives. -/
def source? : Call → Option Value
  | .source v => some v
  | _ => none

/-- The filter that a call gives. -/
def filter? : Call → Option Conditions
  | .filter c => some c
  | _ => none

/-- The columns to group by that a call adds. -/
def addedGroups : Call → List Value
  | .groupBy names => names.map fun n => .column (.dotted n)
  | _ => []

/-- The filter of groups that a call gives. -/
def having? : Call → Option Conditions
  | .having c => some c
  | _ => none

/-- The item of the order that a call adds. -/
def orderItem? : Call → Option OrderItem
  | .orderBy item => some item
  | _ => none

/-- The limit that a call gives. -/
def limit? : Call → Option Nat
  | .limit n => some n
  | _ => none

/-- The offset that a call gives. -/
def offset? : Call → Option Nat
  | .offset n => some n
  | _ => none

end Call

theorem built_concat (calls : List Call) (k : Call) :
    built (calls ++ [k]) = (built calls).call k := by
  rw [built, List.foldl_append]
  rfl

/-- **The query that calls ask for**: lists keep the order of the calls, and for the rest the last
call counts. -/
def asked (calls : List Call) : Select where
  distinct := calls.any Call.isDistinct
  columns := calls.flatMap Call.addedColumns
  source := (calls.filterMap Call.source?).getLast?
  filter := (calls.filterMap Call.filter?).getLast?
  groupBy := calls.flatMap Call.addedGroups
  having := (calls.filterMap Call.having?).getLast?
  orderBy := calls.filterMap Call.orderItem?
  limit := (calls.filterMap Call.limit?).getLast?
  offset := (calls.filterMap Call.offset?).getLast?

theorem built_eq_asked (calls : List Call) : built calls = asked calls := by
  induction calls using List.reverseRecOn with
  | nil => rfl
  | append_singleton calls k ih =>
    rw [built_concat, ih]
    cases k <;> simp [call, asked, Value.columns, Call.isDistinct, Call.addedColumns, Call.source?,
      Call.filter?, Call.addedGroups, Call.having?, Call.orderItem?, Call.limit?, Call.offset?]

end Select

/-! ## Insertions -/

namespace Insert

namespace Call

/-- The columns that a call adds. -/
def addedColumns : Call → List Value
  | .columns names => names.map fun n => .column (.dotted n)
  | _ => []

/-- The row that a call adds. -/
def row? : Call → Option (List Value)
  | .row values => some values
  | _ => none

/-- The calls of the query that a call gives. -/
def query? : Call → Option (List Select.Call)
  | .query calls => some calls
  | _ => none

end Call

/-- The rows that are added after the last query. -/
def lastRows (calls : List Call) : List (List Value) :=
  (calls.reverse.takeWhile fun k => k.query?.isNone).reverse.filterMap Call.row?

/-- The calls of the last query. -/
def lastQuery? (calls : List Call) : Option (List Select.Call) :=
  (calls.filterMap Call.query?).getLast?

/-- Rows, or a query if there are no rows. -/
def Source.given : List (List Value) → Option (List Select.Call) → Source
  | [], some calls => .query (Select.asked calls)
  | kept, _ => .rows kept

theorem lastRows_concat (calls : List Call) (k : Call) :
    lastRows (calls ++ [k]) =
      if k.query?.isNone then lastRows calls ++ k.row?.toList else [] := by
  rw [lastRows, List.reverse_concat, List.takeWhile_cons]
  split_ifs
  · rw [List.reverse_cons, List.filterMap_append, lastRows]
    cases hk : k.row? <;> simp [hk]
  · rfl

theorem lastQuery?_concat (calls : List Call) (k : Call) :
    lastQuery? (calls ++ [k]) = k.query?.or (lastQuery? calls) := by
  rw [lastQuery?, List.filterMap_append, List.getLast?_append, lastQuery?]
  cases hk : k.query? <;> simp [hk]

theorem addRow_given (i : Insert) (rows : List (List Value)) (q? : Option (List Select.Call))
    (row : List Value) (h : i.source = .given rows q?) :
    i.addRow row = { i with source := .rows (rows ++ [row]) } := by
  rcases rows with _ | ⟨r, rows⟩ <;> rcases q? with _ | q <;> simp [addRow, h, Source.given]

theorem built_concat (table : Value) (calls : List Call) (k : Call) :
    built table (calls ++ [k]) = (built table calls).call k := by
  rw [built, List.foldl_append]
  rfl

/-- **The insertion that calls ask for**: the rows after the last query, or that query if no row
comes after it. -/
def asked (table : Value) (calls : List Call) : Insert where
  table := table
  columns := calls.flatMap Call.addedColumns
  source := .given (lastRows calls) (lastQuery? calls)

theorem built_eq_asked (table : Value) (calls : List Call) :
    built table calls = asked table calls := by
  induction calls using List.reverseRecOn with
  | nil => rfl
  | append_singleton calls k ih =>
    rw [built_concat, ih, asked, asked, lastRows_concat, lastQuery?_concat, List.flatMap_append]
    cases k with
    | columns names => simp [call, Value.columns, Call.addedColumns, Call.row?, Call.query?]
    | row values =>
      rw [call, addRow_given _ _ _ _ rfl]
      cases h : lastRows calls <;>
        simp [Call.addedColumns, Call.row?, Call.query?, Source.given]
    | query calls =>
      simp [call, fromQuery, Call.addedColumns, Call.query?, Source.given, Select.built_eq_asked]

end Insert

/-! ## Updates -/

namespace Update

namespace Call

/-- The assignment that a call adds. -/
def assignment? : Call → Option Assignment
  | .set column v => some ⟨.dotted column, v⟩
  | .setColumn column v => some ⟨column, v⟩
  | _ => none

/-- The filter that a call gives. -/
def filter? : Call → Option Conditions
  | .filter c => some c
  | _ => none

/-- The item of the order that a call adds. -/
def orderItem? : Call → Option OrderItem
  | .orderBy item => some item
  | _ => none

/-- The limit that a call gives. -/
def limit? : Call → Option Nat
  | .limit n => some n
  | _ => none

end Call

theorem built_concat (table : Value) (calls : List Call) (k : Call) :
    built table (calls ++ [k]) = (built table calls).call k := by
  rw [built, List.foldl_append]
  rfl

/-- **The update that calls ask for**: lists keep the order of the calls, and for the rest the last
call counts. -/
def asked (table : Value) (calls : List Call) : Update where
  table := table
  assignments := calls.filterMap Call.assignment?
  filter := (calls.filterMap Call.filter?).getLast?
  orderBy := calls.filterMap Call.orderItem?
  limit := (calls.filterMap Call.limit?).getLast?

theorem built_eq_asked (table : Value) (calls : List Call) :
    built table calls = asked table calls := by
  induction calls using List.reverseRecOn with
  | nil => rfl
  | append_singleton calls k ih =>
    rw [built_concat, ih]
    cases k <;> simp [call, asked, Call.assignment?, Call.filter?, Call.orderItem?, Call.limit?]

end Update

/-! ## Deletions -/

namespace Delete

namespace Call

/-- The filter that a call gives. -/
def filter? : Call → Option Conditions
  | .filter c => some c
  | _ => none

/-- The item of the order that a call adds. -/
def orderItem? : Call → Option OrderItem
  | .orderBy item => some item
  | _ => none

/-- The limit that a call gives. -/
def limit? : Call → Option Nat
  | .limit n => some n
  | _ => none

end Call

theorem built_concat (table : Value) (calls : List Call) (k : Call) :
    built table (calls ++ [k]) = (built table calls).call k := by
  rw [built, List.foldl_append]
  rfl

/-- **The deletion that calls ask for**: the order keeps the order of the calls, and for the rest
the last call counts. -/
def asked (table : Value) (calls : List Call) : Delete where
  table := table
  filter := (calls.filterMap Call.filter?).getLast?
  orderBy := calls.filterMap Call.orderItem?
  limit := (calls.filterMap Call.limit?).getLast?

theorem built_eq_asked (table : Value) (calls : List Call) :
    built table calls = asked table calls := by
  induction calls using List.reverseRecOn with
  | nil => rfl
  | append_singleton calls k ih =>
    rw [built_concat, ih]
    cases k <;> simp [call, asked, Call.filter?, Call.orderItem?, Call.limit?]

end Delete

/-! ## Compound queries -/

namespace Compound

namespace Call

/-- The operand that a call adds. -/
def operand? : Call → Option Operand
  | .combine o => some o
  | _ => none

/-- The item of the order that a call adds. -/
def orderItem? : Call → Option OrderItem
  | .orderBy item => some item
  | _ => none

/-- The limit that a call gives. -/
def limit? : Call → Option Nat
  | .limit n => some n
  | _ => none

/-- The offset that a call gives. -/
def offset? : Call → Option Nat
  | .offset n => some n
  | _ => none

end Call

theorem built_concat (first : Value) (calls : List Call) (k : Call) :
    built first (calls ++ [k]) = (built first calls).call k := by
  rw [built, List.foldl_append]
  rfl

/-- **The compound query that calls ask for**: lists keep the order of the calls, and for the limits
the last call counts. -/
def asked (first : Value) (calls : List Call) : Compound where
  first := first
  operands := calls.filterMap Call.operand?
  orderBy := calls.filterMap Call.orderItem?
  limit := (calls.filterMap Call.limit?).getLast?
  offset := (calls.filterMap Call.offset?).getLast?

theorem built_eq_asked (first : Value) (calls : List Call) :
    built first calls = asked first calls := by
  induction calls using List.reverseRecOn with
  | nil => rfl
  | append_singleton calls k ih =>
    rw [built_concat, ih]
    cases k <;> simp [call, asked, Call.operand?, Call.orderItem?, Call.limit?, Call.offset?]

end Compound

/-! ## Tables to select from -/

namespace FromClause

/-- The part that a call adds. -/
def Call.part : Call → Part
  | .add v => .table v
  | .addAs v label => .table (v.aliased label)
  | .join kind v => .joined kind v
  | .joinAs kind v label => .joined kind (v.aliased label)
  | .on c => .on c
  | .using names => .using names

/-- **The tables that calls ask for**: every call adds its part. -/
def asked (first : Value) (calls : List Call) : FromClause where
  first := first
  parts := calls.map Call.part

theorem built_eq_asked (first : Value) (calls : List Call) :
    built first calls = asked first calls := by
  induction calls using List.reverseRecOn with
  | nil => rfl
  | append_singleton calls k ih =>
    rw [built, List.foldl_append]
    change (built first calls).call k = _
    rw [ih, asked, asked, List.map_append]
    cases k <;> rfl

end FromClause

end PortableSql
