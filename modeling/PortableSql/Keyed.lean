/-!
# Lists in order of their keys

* **`insertKey`**: puts a value under a key, in place of the value that stands there.
-/

namespace PortableSql

/-- **Puts a value under a key of a list in increasing order of its keys**, in place of the value
that stands there. -/
def insertKey {β : Type} (key : String) (v : β) : List (String × β) → List (String × β)
  | [] => [(key, v)]
  | (k, w) :: rest =>
    if key < k then (key, v) :: (k, w) :: rest
    else if key = k then (key, v) :: rest
    else (k, w) :: insertKey key v rest

end PortableSql
