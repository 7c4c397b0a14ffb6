import PortableSql.Text.CodePoints

/-!
# Blanks

* `blankPoints`, `isBlank`: the white space of Unicode.
* **`trim`**: a text without the blanks at its two ends.
-/

namespace PortableSql.Text

/-- The characters with the White_Space property. -/
def blankPoints : CodePoints :=
  [(0x09, 0x0D), (0x20, 0x20), (0x85, 0x85), (0xA0, 0xA0), (0x1680, 0x1680), (0x2000, 0x200A),
   (0x2028, 0x2029), (0x202F, 0x202F), (0x205F, 0x205F), (0x3000, 0x3000)]

/-- `c` is white space. -/
def isBlank (c : Char) : Bool := blankPoints.has c

/-- `cs` without its trailing blanks. -/
def dropTrailing : List Char → List Char
  | [] => []
  | c :: cs => match dropTrailing cs with
    | [] => if isBlank c then [] else [c]
    | kept => c :: kept

/-- **The text without leading and trailing blanks.** -/
def trim (s : String) : String := String.ofList (dropTrailing (s.toList.dropWhile isBlank))

end PortableSql.Text
