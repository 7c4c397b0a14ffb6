/-!
# Doubles as exact numbers

* **`Binary64`**: not a number, an infinity, or a sign with a whole multiple of a power of two.
* `Binary64.ofFloat`: a double read from its bits.
* `isFinite`: the double is a number and no infinity.
-/

namespace PortableSql.Decimal

/-- **A double as an exact number.** `finite n m e` is `m · 2^(e - 1074)`, negated if `n`. -/
inductive Binary64 where
  | nan
  | infinite (negative : Bool)
  | finite (negative : Bool) (significand exponent : Nat)
  deriving Repr, DecidableEq

/-- The fields of the bits: sign, 11 bits of exponent, 52 bits of fraction. -/
def Binary64.ofBits (bits : Nat) : Binary64 :=
  let negative := bits / Nat.pow 2 63 == 1
  let exponent := bits / Nat.pow 2 52 % Nat.pow 2 11
  let fraction := bits % Nat.pow 2 52
  if exponent = 2047 then if fraction = 0 then .infinite negative else .nan
  else if exponent = 0 then .finite negative fraction 0
  else .finite negative (Nat.pow 2 52 + fraction) (exponent - 1)

/-- The exact value of a double. -/
def Binary64.ofFloat (x : Float) : Binary64 := .ofBits x.toBits.toNat

/-- **`x` is a number and no infinity.** -/
def isFinite (x : Float) : Bool :=
  match Binary64.ofFloat x with
  | .finite .. => true
  | _ => false

end PortableSql.Decimal
