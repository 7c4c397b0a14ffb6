/-!
# Hexadecimal digits

* **`hexDigit`**: the digit of a number below 16, with letters from a given one on.
-/

namespace PortableSql.Text

/-- **The hexadecimal digit of `n < 16`**; `ten` is the digit of ten, in the case that is wanted. -/
def hexDigit (ten : Char) (n : Nat) : Char :=
  if n < 10 then Char.ofNat (48 + n) else Char.ofNat (ten.toNat + (n - 10))

end PortableSql.Text
