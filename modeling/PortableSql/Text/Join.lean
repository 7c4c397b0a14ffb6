/-!
# Joining texts

* **`join`**: texts with a separator between neighbours.
* **`joinFilled`**: the same for the texts that are not empty.
-/

namespace PortableSql.Text

/-- **The texts with `separator` between neighbours.** -/
def join (separator : String) : List String → String
  | [] => ""
  | [s] => s
  | s :: t :: rest => s ++ separator ++ join separator (t :: rest)

/-- **The texts that are not empty, with `separator` between neighbours.** -/
def joinFilled (separator : String) (parts : List String) : String :=
  join separator (parts.filter (· ≠ ""))

end PortableSql.Text
