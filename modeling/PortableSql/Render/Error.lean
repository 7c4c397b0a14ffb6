/-!
# Errors of rendering

* `NonFinite`: a double that no literal can stand for.
* **`RenderError`**: why a value cannot be written, with `RenderError.message`.
-/

namespace PortableSql

/-- A double that is not a finite number. -/
inductive NonFinite where
  | nan
  | infinite (negative : Bool)
  deriving Repr, DecidableEq

/-- The usual short name. -/
def NonFinite.name : NonFinite → String
  | .nan => "NaN"
  | .infinite negative => if negative then "-inf" else "inf"

/-- **Why a value cannot be written.** -/
inductive RenderError where
  | missingPositional (index : Nat) (template : String)
  | missingNamed (token template : String)
  | unusedPositional (used supplied : Nat) (template : String)
  | nonFiniteFloat (x : NonFinite)
  deriving Repr, DecidableEq

/-- The wording of the error. -/
def RenderError.message : RenderError → String
  | .missingPositional index template =>
    "no positional parameter at index " ++ toString index ++ " for template '" ++ template ++ "'"
  | .missingNamed token template =>
    "no parameter named '" ++ token ++ "' for template '" ++ template ++ "'"
  | .unusedPositional used supplied template =>
    "template '" ++ template ++ "' consumed " ++ toString used ++ " of " ++ toString supplied
      ++ " positional parameters"
  | .nonFiniteFloat x => "float " ++ x.name ++ " has no SQL literal representation"

end PortableSql
