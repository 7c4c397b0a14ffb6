/-!
# Literals

* **`Literal`**: the scalar values of a statement.
* `Literal.same`: equality as the engine compares, so that a float that is not a number differs
  from itself and the two zeros agree.
-/

namespace PortableSql

/-- **A scalar value.** -/
inductive Literal where
  | null
  | bool (b : Bool)
  | int (n : Int64)
  | float (x : Float)
  | text (s : String)
  | blob (bytes : List UInt8)

/-- Equality of literals, with floats compared as numbers. -/
def Literal.same : Literal → Literal → Bool
  | .null, .null => true
  | .bool a, .bool b => a == b
  | .int m, .int n => m == n
  | .float x, .float y => x == y
  | .text s, .text t => s == t
  | .blob a, .blob b => a == b
  | _, _ => false

instance : BEq Literal := ⟨Literal.same⟩

end PortableSql
