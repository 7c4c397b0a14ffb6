import PortableSql.Proofs.Text.Delimited
import PortableSql.Render.Literal

/-!
# Text literals delimit themselves

* `Engine.escapeSign`, **`Engine.readText`**: how an engine reads a text literal.
* `Engine.readInside_escape`: an escaped text in single quotes is read back.
* **`Dialect.readText_quoteLiteral`**: a quoted text is read back in every dialect, and what comes
  after it is left.
-/

namespace PortableSql

/-- The character that makes the next one stand for itself. -/
def Engine.escapeSign : Engine → Option Char
  | .mysql => some '\\'
  | _ => none

/-- **Reads the text literal that an input starts with**: the text that it stands for, and the rest
of the input. Two single quotes stand for one. -/
def Engine.readText (e : Engine) (input : String) : Option (String × String) :=
  match input.toList with
  | '\'' :: cs => (Text.readInside '\'' e.escapeSign cs).map fun p =>
      (String.ofList p.1, String.ofList p.2)
  | _ => none

theorem Engine.readInside_escape (e : Engine) (s : String) {rest : List Char}
    (h : rest.head? ≠ some '\'') :
    Text.readInside '\'' e.escapeSign ((e.escape s).toList ++ '\'' :: rest) =
      some (s.toList, rest) := by
  have hplain : Text.readInside '\'' none ((Text.doubled '\'' s).toList ++ '\'' :: rest) =
      some (s.toList, rest) := by
    rw [Text.doubled, String.toList_ofList]
    exact Text.readInside_double '\'' s.toList h
  cases e with
  | mysql =>
    rw [escape, Text.doubled, Text.doubled, String.toList_ofList, String.toList_ofList]
    exact Text.readInside_double_double (by decide) s.toList h
  | generic => exact hplain
  | postgres => exact hplain
  | sqlite => exact hplain
  | sqlserver => exact hplain

theorem Engine.toList_quoteText_append (e : Engine) (s : String) (rest : List Char) :
    ("'" ++ e.escape s ++ "'").toList ++ rest = '\'' :: ((e.escape s).toList ++ '\'' :: rest) := by
  simp [String.toList_append]

/-- **A quoted text is read back**, and what comes after it is left, unless that begins with another
single quote. -/
theorem Dialect.readText_quoteLiteral (d : Dialect) (s rest : String)
    (h : rest.toList.head? ≠ some '\'') :
    ∃ text, d.quoteLiteral (.text s) = .ok text ∧
      d.engine.readText (text ++ rest) = some (s, rest) := by
  refine ⟨_, rfl, ?_⟩
  have hinput : ("'" ++ d.escape s ++ "'" ++ rest).toList =
      '\'' :: ((d.engine.escape s).toList ++ '\'' :: rest.toList) := by
    simp [Dialect.escape, String.toList_append]
  rw [Engine.readText, hinput]
  simp only [d.engine.readInside_escape s h, Option.map_some, String.ofList_toList]

/-- A text that ends in a backslash and holds quotes of both kinds. -/
theorem Dialect.readText_quoteLiteral_backslash :
    let d : Dialect := .prefixed (.configured ⟨.mysql, "p_", some ⟨'<', '>'⟩⟩) "q_"
    ", '1')".toList.head? ≠ some '\'' ∧ ∃ text, d.quoteLiteral (.text "\\'' \"\\'\\") = .ok text ∧
      d.engine.readText (text ++ ", '1')") = some ("\\'' \"\\'\\", ", '1')") :=
  ⟨by decide, Dialect.readText_quoteLiteral _ _ _ (by decide)⟩

end PortableSql
