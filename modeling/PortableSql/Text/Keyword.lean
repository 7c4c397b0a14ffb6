import PortableSql.Text.Blank
import PortableSql.Text.Uppercase

/-!
# Keywords

* **`keyword`**: connectives and operators, however they are typed, in their written form.
-/

namespace PortableSql.Text

/-- **The written form of a connective or operator**: without blanks around it, in upper case. -/
def keyword (s : String) : String := toUpper (trim s)

end PortableSql.Text
