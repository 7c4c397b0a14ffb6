import PortableSql.Render.Error
import PortableSql.Template

/-!
# Filling a template

The pieces of a template are written from left to right. A placeholder stands for an action that
gives its text; what else the action does is left to the renderer.

* `inOrder`: the results of actions, in order.
* `fillFrom`: the pieces from a position on, with the positional actions that are left.
* **`fill`**: a whole template. A placeholder without a value fails where it stands, a value
  without a placeholder after all pieces.
-/

namespace PortableSql

variable {m : Type → Type} [Monad m]

/-- The results of `actions`, in order. -/
def inOrder : List (m String) → m (List String)
  | [] => pure []
  | action :: actions => do
    let s ← action
    return s :: (← inOrder actions)

variable [MonadExceptOf RenderError m]

/-- Writes pieces when `used` positional values have been taken and `positional` are left. -/
def fillFrom (template : String) (named : List (String × m String)) :
    List Piece → Nat → List (m String) → m String
  | [], _, [] => pure ""
  | [], used, left => throw (.unusedPositional used (used + left.length) template)
  | .text s :: ps, used, left => do return s ++ (← fillFrom template named ps used left)
  | .positional :: _, used, [] => throw (.missingPositional used template)
  | .positional :: ps, used, action :: left => do
    let s ← action
    return s ++ (← fillFrom template named ps (used + 1) left)
  | .named token :: ps, used, left =>
    match named.lookup token with
    | none => throw (.missingNamed token template)
    | some action => do
      let s ← action
      return s ++ (← fillFrom template named ps used left)

/-- **Writes a template with its positional and named actions.** -/
def fill (template : String) (positional : List (m String)) (named : List (String × m String)) :
    m String :=
  fillFrom template named (Template.split template) 0 positional

end PortableSql
