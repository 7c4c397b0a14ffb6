import PortableSql.Decimal.Shortest

/-!
# Writing a double

* `Layout`: the decisions of one format: ties, the mark of a whole number, and the places of the
  point for which the number is written without an exponent.
* `Layout.positional`, `Layout.scientific`: the two ways to set out digits.
* **`Layout.write`**: the text of a finite double, and nothing for any other.
-/

namespace PortableSql.Decimal

/-- How a format writes doubles. -/
structure Layout where
  /-- Which of two equally near shortest decimals is written. -/
  tie : Tie
  /-- What follows a number without a fraction. -/
  wholeMark : String
  /-- The least and the greatest place of the point that need no exponent; all, if absent. -/
  window : Option (Int × Int)

/-- `n` zeros. -/
def zeros (n : Int) : String := String.ofList (List.replicate n.toNat '0')

/-- Digits with the point in its place and no exponent. -/
def Layout.positional (l : Layout) (d : Digits) : String :=
  let point := d.point
  if point ≤ 0 then "0." ++ zeros (-point) ++ String.ofList d.digits
  else if d.digits.length ≤ point then String.ofList d.digits ++ zeros d.exponent ++ l.wholeMark
  else String.ofList (d.digits.take point.toNat) ++ "." ++ String.ofList (d.digits.drop point.toNat)

/-- One digit, the point, the other digits and a signed exponent. -/
def scientific (d : Digits) : String :=
  let exponent := d.point - 1
  let sign := if exponent < 0 then "e-" else "e+"
  let fraction := d.digits.drop 1
  String.ofList (d.digits.take 1)
    ++ (if fraction.isEmpty then "" else "." ++ String.ofList fraction) ++ sign ++ toString exponent.natAbs

/-- Digits, with an exponent if the point lies outside the window. -/
def Layout.place (l : Layout) (d : Digits) : String :=
  match l.window with
  | none => l.positional d
  | some (least, greatest) =>
    if least ≤ d.point ∧ d.point ≤ greatest then l.positional d else scientific d

/-- **The text of a finite double**; a zero keeps its sign. -/
def Layout.write (l : Layout) (x : Float) : Option String :=
  match Binary64.ofFloat x with
  | .finite negative m e =>
    let body := if m = 0 then "0" ++ l.wholeMark else l.place (shortest l.tie m e)
    some ((if negative then "-" else "") ++ body)
  | _ => none

end PortableSql.Decimal
