/-!
# Doubling a delimiter

Inside a quoted text the closing delimiter is written twice.

* **`double`**: every occurrence of one character written twice.
* `doubled`: the same on texts.
-/

namespace PortableSql.Text

/-- **`cs` with every `d` written twice.** -/
def double (d : Char) : List Char → List Char
  | [] => []
  | c :: cs => if c = d then d :: d :: double d cs else c :: double d cs

/-- The text with every `d` written twice. -/
def doubled (d : Char) (s : String) : String := String.ofList (double d s.toList)

end PortableSql.Text
