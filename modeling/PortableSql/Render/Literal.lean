import PortableSql.Decimal.Layout
import PortableSql.Dialect
import PortableSql.Literal
import PortableSql.Render.Error
import PortableSql.Text.Hex

/-!
# Written literals

* `floatLayout`: floats are written with the fewest digits that read back, never with an exponent.
* `hexByte`: two upper-case hexadecimal digits.
* **`Dialect.quoteLiteral`**: the SQL text of a literal; `Dialect.quoteList`: a list in parentheses.
-/

namespace PortableSql

/-- Floats have no exponent, whole ones no fraction, and of two nearest decimals the greater is
written. -/
def floatLayout : Decimal.Layout := ⟨.up, "", none⟩

/-- A byte as two upper-case hexadecimal digits. -/
def hexByte (b : UInt8) : List Char :=
  [Text.hexDigit 'A' (b.toNat / 16), Text.hexDigit 'A' (b.toNat % 16)]

/-- The text of a finite double. -/
def quoteFloat (x : Float) : Except RenderError String :=
  match floatLayout.write x with
  | some s => .ok s
  | none => match Decimal.Binary64.ofFloat x with
    | .infinite negative => .error (.nonFiniteFloat (.infinite negative))
    | _ => .error (.nonFiniteFloat .nan)

namespace Dialect

/-- **The SQL text of a literal.** Truth values are the texts `1` and `0`. -/
def quoteLiteral (d : Dialect) : Literal → Except RenderError String
  | .null => .ok "NULL"
  | .bool b => .ok (if b then "'1'" else "'0'")
  | .int n => .ok (toString n.toInt)
  | .float x => quoteFloat x
  | .text s => .ok ("'" ++ d.escape s ++ "'")
  | .blob bytes => .ok ("X'" ++ String.ofList (bytes.flatMap hexByte) ++ "'")

/-- The texts of literals, up to the first that has none. -/
def quoteEach (d : Dialect) : List Literal → Except RenderError (List String)
  | [] => .ok []
  | l :: ls => do
    let s ← d.quoteLiteral l
    return s :: (← d.quoteEach ls)

/-- **Literals in parentheses, with commas between them.** -/
def quoteList (d : Dialect) (ls : List Literal) : Except RenderError String := do
  return "(" ++ Text.join ", " (← d.quoteEach ls) ++ ")"

end Dialect

end PortableSql
