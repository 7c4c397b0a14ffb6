import PortableSql.Decimal.Binary64

/-!
# The shortest decimal of a double

The reals that round to `m · 2^(e - 1074)` form an interval that reaches half way to its two
neighbours and holds its ends when `m` is even. The shortest decimal is the first point in that
interval on the grids of one, two, … digits; of two points on one grid, the nearer.

* `Tie`: which of two equally near points is taken.
* `Digits`: a decimal, as its digits and a power of ten; `Digits.point` is the place of the point.
* **`shortest`**: the shortest decimal of a nonzero double.
-/

namespace PortableSql.Decimal

/-- Which of two equally near decimals is taken: the greater, or the one with an even last digit. -/
inductive Tie where
  | up | even
  deriving Repr, DecidableEq

/-- The number `digits · 10^exponent`. -/
structure Digits where
  digits : List Char
  exponent : Int
  deriving Repr, DecidableEq

/-- How many digits stand before the decimal point; zero or less if only zeros do. -/
def Digits.point (d : Digits) : Int := d.digits.length + d.exponent

/-- `n · 10^exponent` without trailing zeros in its digits. -/
def Digits.ofNat (n : Nat) (exponent : Int) : Digits :=
  let zeros := (Nat.toDigits 10 n).reverse.takeWhile (· == '0')
  ⟨((Nat.toDigits 10 n).reverse.drop zeros.length).reverse, exponent + zeros.length⟩

/-! ## The rounding interval

All bounds and grid points are counted in the unit `2^-1076 · 10^-400`, in which they are whole. -/

/-- The reals that round to one double, in the common unit. -/
structure Interval where
  low : Nat
  value : Nat
  high : Nat
  closed : Bool

/-- The interval of `m · 2^(e - 1074)`; the gap below a power of two is half as wide. -/
def Interval.of (m e : Nat) : Interval :=
  let quarter := Nat.pow 2 e * Nat.pow 10 400
  let below := if m = Nat.pow 2 52 ∧ 0 < e then quarter else 2 * quarter
  let value := 4 * m * quarter
  ⟨value - below, value, value + 2 * quarter, m % 2 == 0⟩

/-- The point `x` rounds to the double. -/
def Interval.has (i : Interval) (x : Nat) : Bool :=
  if i.closed then i.low ≤ x && x ≤ i.high else i.low < x && x < i.high

/-! ## The search -/

/-- The point of the grid with spacing `unit` that reads back and is nearest, if one reads back. -/
def Interval.nearest (i : Interval) (tie : Tie) (unit : Nat) : Option Nat :=
  let down := i.value / unit
  let up := down + 1
  match i.has (down * unit), i.has (up * unit) with
  | false, false => none
  | true, false => some down
  | false, true => some up
  | true, true => match compare (2 * i.value) ((down + up) * unit) with
    | .lt => some down
    | .gt => some up
    | .eq => match tie with
      | .up => some up
      | .even => some (if down % 2 = 0 then down else up)

/-- **The shortest decimal of `m · 2^(e - 1074)`**, for a nonzero `m`. Seventeen digits always read
back; without a hit the exact decimal would be given. -/
def shortest (tie : Tie) (m e : Nat) : Digits :=
  let i := Interval.of m e
  let places := (Nat.toDigits 10 (i.value / Nat.pow 2 1076)).length
  let hit := (List.range 17).findSome? fun n =>
    let scale := places - (n + 1)
    (i.nearest tie (Nat.pow 10 scale * Nat.pow 2 1076)).map fun d => Digits.ofNat d (scale - 400)
  hit.getD (Digits.ofNat (m * Nat.pow 2 e * Nat.pow 5 1074) (-1074))

end PortableSql.Decimal
