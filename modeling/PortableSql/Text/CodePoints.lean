/-!
# Sets of code points

* `CodePoints`: a set of characters, given as inclusive ranges of code points.
* `CodePoints.has`: membership.
-/

namespace PortableSql.Text

/-- A set of characters: inclusive ranges of code points in increasing order. -/
abbrev CodePoints := List (Nat × Nat)

/-- The set holds `c`. -/
def CodePoints.has (s : CodePoints) (c : Char) : Bool :=
  s.any fun r => r.1 ≤ c.toNat && c.toNat ≤ r.2

end PortableSql.Text
