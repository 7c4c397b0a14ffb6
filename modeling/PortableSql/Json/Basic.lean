import PortableSql.Json.Document
import PortableSql.Keyed

/-!
# Values of documents

* **`Json`**: a value whose numbers are in range and whose records have their names in increasing
  order, each once.
* `Json.ofDocument?`: the value of a document; of repeated names the last counts.
* **`Json.parse?`**: the value of a text with at most 127 lists and records inside each other.
-/

namespace PortableSql

/-- **A value of a document.** -/
inductive Json where
  | null
  | bool (b : Bool)
  | number (n : Json.Number)
  | string (s : String)
  | list (items : List Json)
  | record (members : List (String × Json))

namespace Json

/-- Members in increasing order of their names; of repeated names the last counts. -/
def sortMembers (members : List (String × Json)) : List (String × Json) :=
  members.foldl (fun sorted (name, v) => insertKey name v sorted) []

mutual

/-- **The value of a document**, if its numbers are in range and its strings are well formed. -/
def ofDocument? : Document → Option Json
  | .null => some .null
  | .bool b => some (.bool b)
  | .number n => n.value?.map .number
  | .string s => s.text?.map .string
  | .list items => (ofItems? items).map .list
  | .record members => (ofMembers? members).map fun ms => .record (sortMembers ms)

/-- The values of items, in order. -/
def ofItems? : List Document → Option (List Json)
  | [] => some []
  | d :: ds => do
    let v ← ofDocument? d
    return v :: (← ofItems? ds)

/-- The values of members, in order. -/
def ofMembers? : List (RawText × Document) → Option (List (String × Json))
  | [] => some []
  | (name, d) :: ds => do
    let name ← name.text?
    let v ← ofDocument? d
    return (name, v) :: (← ofMembers? ds)

end

/-- How many lists and records may stand inside each other. -/
def nestingLimit : Nat := 127

/-- **The value of a text.** -/
def parse? (text : String) : Option Json :=
  (Document.parse? (some nestingLimit) text).bind ofDocument?

end Json

end PortableSql
