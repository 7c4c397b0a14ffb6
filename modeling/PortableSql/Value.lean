import PortableSql.Keyed
import PortableSql.Literal
import PortableSql.Name

/-!
# Values and expressions

A statement is a value: a literal, a name, a sequence, or an expression, which is a template with
the values of its placeholders.

* **`Value`**, **`Expression`**.
* `Expression.raw`, `Expression.withParameters`, `Expression.bind`, `Expression.bindNamed`: ways to
  build an expression; named values are kept in increasing order of their tokens.
* `Value.aliased`: `value AS label`.
* `Value.same`: structural equality.
-/

namespace PortableSql

mutual

/-- **A node of a statement.** -/
inductive Value where
  | literal (l : Literal)
  | identifier (n : Name)
  | column (n : Name)
  | table (n : Name)
  | sequence (items : List Value)
  | expression (e : Expression)

/-- **A template with its positional values and its named values**, whose tokens start with `:`. -/
structure Expression where
  template : String
  positional : List Value
  named : List (String × Value)

end

namespace Expression

/-- The text `sql` as it stands. -/
def raw (sql : String) : Expression := ⟨sql, [], []⟩

/-- A template with positional values only. -/
def withParameters (template : String) (positional : List Value) : Expression :=
  ⟨template, positional, []⟩

/-- The expression has a positional or a named value. -/
def hasParameters (e : Expression) : Bool := !e.positional.isEmpty || !e.named.isEmpty

/-- The expression with one more positional value. -/
def bind (e : Expression) (v : Value) : Expression := { e with positional := e.positional ++ [v] }

/-- The sign that starts every named token. -/
def sigil : Char := ':'

/-- The token of a name: the name itself if it has the sign already. -/
def token (name : String) : String :=
  match name.toList with
  | c :: _ => if c = sigil then name else sigil.toString ++ name
  | [] => sigil.toString ++ name

/-- The expression with `v` as the value of a name. -/
def bindNamed (e : Expression) (name : String) (v : Value) : Expression :=
  { e with named := insertKey (token name) v e.named }

end Expression

namespace Value

/-- The value is a sequence without items. -/
def isEmptySequence : Value → Bool
  | .sequence items => items.isEmpty
  | _ => false

/-- A text literal. -/
def text (s : String) : Value := .literal (.text s)

/-- The columns of dotted names, in order. -/
def columns (names : List String) : List Value := names.map fun n => .column (.dotted n)

/-- `v AS label`; dots in the label are part of the name. -/
def aliased (v : Value) (label : String) : Value :=
  .expression (.withParameters "? AS ?" [v, .identifier ⟨label, .none⟩])

/-! ## Equality -/

mutual

/-- Structural equality, with floats compared as numbers. -/
def same : Value → Value → Bool
  | .literal a, .literal b => a == b
  | .identifier a, .identifier b => a = b
  | .column a, .column b => a = b
  | .table a, .table b => a = b
  | .sequence as, .sequence bs => sameEach as bs
  | .expression e, .expression f => sameExpression e f
  | _, _ => false

/-- Equality of two expressions. -/
def sameExpression : Expression → Expression → Bool
  | ⟨s, as, ms⟩, ⟨t, bs, ns⟩ => s == t && sameEach as bs && sameNamed ms ns

/-- Equality of two lists of values. -/
def sameEach : List Value → List Value → Bool
  | [], [] => true
  | a :: as, b :: bs => same a b && sameEach as bs
  | _, _ => false

/-- Equality of two lists of named values. -/
def sameNamed : List (String × Value) → List (String × Value) → Bool
  | [], [] => true
  | (k, a) :: as, (l, b) :: bs => k == l && same a b && sameNamed as bs
  | _, _ => false

end

instance : BEq Value := ⟨same⟩

end Value

end PortableSql
