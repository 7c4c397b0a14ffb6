import PortableSql.Decimal.Layout
import PortableSql.Literal
import PortableSql.Text.Hex
import PortableSql.Text.Join

/-!
# Literals in documents

* `Json.floatLayout`: doubles have a fraction, and an exponent where the point is far away.
* `Json.quoted`: a text as a string; only what must be escaped is.
* **`Json.ofLiteral`**, `Json.ofLiterals`: the compact text of literals.
-/

namespace PortableSql.Json

/-- Doubles always have a fraction or an exponent, which stands from `10^16` on and below
`10^-5`. -/
def floatLayout : Decimal.Layout := ⟨.even, ".0", some (-4, 16)⟩

/-- A character inside a string. -/
def escape (c : Char) : List Char :=
  if c = '"' then ['\\', '"']
  else if c = '\\' then ['\\', '\\']
  else if c = '\x08' then ['\\', 'b']
  else if c = '\x0c' then ['\\', 'f']
  else if c = '\n' then ['\\', 'n']
  else if c = '\r' then ['\\', 'r']
  else if c = '\t' then ['\\', 't']
  else if c.toNat < 0x20 then
    ['\\', 'u', '0', '0', Text.hexDigit 'a' (c.toNat / 16),
      Text.hexDigit 'a' (c.toNat % 16)]
  else [c]

/-- A text as a string. -/
def quoted (s : String) : String := "\"" ++ String.ofList (s.toList.flatMap escape) ++ "\""

/-- Texts of items as a list. -/
def bracketed (items : List String) : String := "[" ++ Text.join "," items ++ "]"

/-- **The compact text of a literal**; bytes are a list of numbers, and a double that is not finite
is null. -/
def ofLiteral : Literal → String
  | .null => "null"
  | .bool b => if b then "true" else "false"
  | .int n => toString n.toInt
  | .float x => (floatLayout.write x).getD "null"
  | .text s => quoted s
  | .blob bytes => bracketed (bytes.map fun b => toString b.toNat)

/-- The compact text of a list of literals. -/
def ofLiterals (ls : List Literal) : String := bracketed (ls.map ofLiteral)

end PortableSql.Json
