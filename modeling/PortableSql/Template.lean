import PortableSql.Text.WordChar

/-!
# Templates

A template is text with placeholders: `?` takes the next positional value, and a colon with the
word characters after it takes a named value. A colon right after another colon starts no
placeholder, so that casts such as `x::text` stay text.

* **`Piece`**: a stretch of text, a positional placeholder, or a named one with its token.
* `Piece.source`: the part of the template that a piece stands for.
* `Template.scan`, **`Template.split`**: the pieces of a template, with no two texts side by side.
-/

namespace PortableSql

/-- **A part of a template.** -/
inductive Piece where
  | text (s : String)
  | positional
  | named (token : String)
  deriving Repr, DecidableEq

/-- The part of the template that the piece stands for. -/
def Piece.source : Piece → String
  | .text s => s
  | .positional => "?"
  | .named token => token

namespace Template

/-- Text in front of pieces; it joins a text that comes first. -/
def withText (cs : List Char) (ps : List Piece) : List Piece :=
  if cs = [] then ps
  else match ps with
    | .text s :: rest => .text (String.ofList cs ++ s) :: rest
    | _ => .text (String.ofList cs) :: ps

/-- The run of word characters that `cs` starts with, and the pieces of the rest; `afterColon` says
that a colon stands before `cs`. -/
def scan (afterColon : Bool) : List Char → List Char × List Piece
  | [] => ([], [])
  | c :: cs =>
    let (run, ps) := scan (c == ':') cs
    if Text.isWordChar c then (c :: run, ps)
    else if c = '?' then ([], .positional :: withText run ps)
    else if c = ':' ∧ afterColon = false ∧ run ≠ [] then
      ([], .named (String.ofList (c :: run)) :: ps)
    else ([], withText (c :: run) ps)

/-- **The pieces of a template, from left to right.** -/
def split (template : String) : List Piece :=
  let (run, ps) := scan false template.toList
  withText run ps

end Template

end PortableSql
