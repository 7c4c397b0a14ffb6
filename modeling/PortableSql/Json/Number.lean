import PortableSql.Decimal.Binary64

/-!
# Numbers of documents

A numeral is read into a 64-bit integer or a finite double. Its digits are gathered into a
significand below `2^64`, and the first digit that would not fit ends the gathering; the double is
that significand, multiplied or divided by a power of ten.

* `Numeral`: the parts of a numeral.
* `FiniteFloat`, `Number`: what a numeral stands for.
* `takeWhole`, `takeFraction`: the significand.
* **`Numeral.value?`**: the number, unless it is beyond the range of doubles.
-/

namespace PortableSql.Json

/-- The parts of a numeral; digits are given by their values. -/
structure Numeral where
  negative : Bool := false
  whole : List Nat := []
  fraction : List Nat := []
  /-- The sign and the digits of the exponent. -/
  exponent : Option (Bool × List Nat) := none
  deriving Repr, DecidableEq

/-- A double that is a number and no infinity. -/
structure FiniteFloat where
  val : Float
  finite : Decimal.isFinite val = true

/-- **A number**: an integer if its numeral is one and fits, otherwise a double. -/
inductive Number where
  | int (n : Int64)
  | float (x : FiniteFloat)

/-! ## The significand -/

/-- The digits that are gathered fit into 64 bits. -/
def fits (significand digit : Nat) : Bool := significand * 10 + digit < Nat.pow 2 64

/-- The significand of whole digits, and how many digits are left out of it. -/
def takeWhole (significand : Nat) : List Nat → Nat × Nat
  | [] => (significand, 0)
  | d :: ds =>
    if fits significand d then takeWhole (significand * 10 + d) ds else (significand, ds.length + 1)

/-- The significand with further digits of a fraction, and how many are taken into it. -/
def takeFraction (significand : Nat) : List Nat → Nat × Nat
  | [] => (significand, 0)
  | d :: ds =>
    if fits significand d then
      let (s, taken) := takeFraction (significand * 10 + d) ds
      (s, taken + 1)
    else (significand, 0)

/-! ## Scaling -/

/-- The double nearest to `10^n`. -/
def powerOfTen (n : Nat) : Float := Float.ofScientific 1 false n

/-- `x / 10^n`, in steps that doubles can hold. -/
def divideByPower (x : Float) (n : Nat) : Float :=
  if n ≤ 308 then x / powerOfTen n
  else if x == 0 then x
  else divideByPower (x / powerOfTen 308) (n - 308)
termination_by n

/-- `significand · 10^exponent` as a double, if it is finite. -/
def scale (significand : Nat) (exponent : Int) : Option Float :=
  let x := (UInt64.ofNat significand).toFloat
  if exponent < 0 then some (divideByPower x exponent.natAbs)
  else if exponent ≤ 308 then
    let y := x * powerOfTen exponent.natAbs
    if Decimal.isFinite y then some y else none
  else if significand = 0 then some x
  else none

/-- The number of a double, if it is finite. -/
def ofFloat? (x : Float) : Option Number :=
  if h : Decimal.isFinite x = true then some (.float ⟨x, h⟩) else none

/-! ## Numerals -/

/-- The number of a numeral without fraction and exponent whose digits all fit; the negative zero
is a double. -/
def ofInteger? (negative : Bool) (n : Nat) : Option Number :=
  if negative then
    if 0 < n ∧ n ≤ Nat.pow 2 63 then some (.int (Int64.ofInt (-n)))
    else ofFloat? (-(UInt64.ofNat n).toFloat)
  else if n < Nat.pow 2 63 then some (.int (Int64.ofNat n))
  else ofFloat? (UInt64.ofNat n).toFloat

/-- The double of a significand with an exponent, with its sign. -/
def ofParts? (negative : Bool) (significand : Nat) (exponent : Int) : Option Number := do
  let x ← scale significand exponent
  ofFloat? (if negative then -x else x)

/-- The value of digits. -/
def digitsValue (ds : List Nat) : Nat := ds.foldl (fun n d => n * 10 + d) 0

/-- **The number that a numeral stands for.** An exponent of more than 31 bits makes it zero or
puts it out of range. -/
def Numeral.value? (n : Numeral) : Option Number :=
  let (wholePart, leftOut) := takeWhole 0 n.whole
  let (significand, taken) := takeFraction wholePart n.fraction
  let start : Int := leftOut - taken
  match n.exponent with
  | none =>
    if n.fraction = [] ∧ leftOut = 0 then ofInteger? n.negative significand
    else ofParts? n.negative significand start
  | some (negativeExponent, digits) =>
    let e := digitsValue digits
    if Nat.pow 2 31 ≤ e then
      if significand = 0 ∨ negativeExponent then ofParts? n.negative 0 0 else none
    else ofParts? n.negative significand (if negativeExponent then start - e else start + e)

end PortableSql.Json
