import PortableSql.Connection.Registry
import PortableSql.Json.Document

/-!
# Connections in documents

A connection is a record with the fields `kind`, `table_prefix` and `quote`, a registry one with
`default` and `connections`; each field has a default. A list gives the fields in order. A field
that is not known or comes twice is refused, except that the record of a quote pair may have other
fields.

* `fields?`, `listed?`: the fields of records and lists.
* `Engine.ofDocument?`, `Quotes.ofDocument?`, `Connection.ofDocument?`, `Registry.ofDocument?`.
* **`Connection.parse?`**, **`Registry.parse?`**: the same from texts.
-/

namespace PortableSql

open Json (Document RawText)

/-! ## Fields -/

/-- The members whose names are known, unless a name comes twice, is not well formed, or is unknown
where only known ones are allowed. -/
def fields? (known : List String) (strict : Bool) :
    List (RawText × Document) → Option (List (String × Document))
  | [] => some []
  | (name, d) :: rest => do
    let name ← name.text?
    let others ← fields? known strict rest
    if known.contains name then
      if (others.lookup name).isSome then none else some ((name, d) :: others)
    else if strict then none
    else some others

/-- The items of a list as the fields with those names, unless there are more items than names. -/
def listed? (known : List String) (items : List Document) : Option (List (String × Document)) :=
  if items.length ≤ known.length then some (known.zip items) else none

/-- The fields of a record without unknown ones, or of a list. -/
def strictFields? (known : List String) : Document → Option (List (String × Document))
  | .record members => fields? known true members
  | .list items => listed? known items
  | _ => none

/-- The value of a field, or its default if it is absent. -/
def field? {α : Type} (fields : List (String × Document)) (name : String) (default : α)
    (read : Document → Option α) : Option α :=
  match fields.lookup name with
  | none => some default
  | some d => read d

/-! ## Values of fields -/

/-- The text of a string. -/
def textOf? : Document → Option String
  | .string s => s.text?
  | _ => none

/-- A value that may be null. -/
def nullable? {α : Type} (read : Document → Option α) : Document → Option (Option α)
  | .null => some none
  | d => (read d).map some

/-- The character of a string that has only one. -/
def charOf? (d : Document) : Option Char := do
  match (← textOf? d).toList with
  | [c] => some c
  | _ => none

/-- An engine by its canonical name, which may also be the one name of a record with null. -/
def Engine.ofDocument? : Document → Option Engine
  | .string s => s.text?.bind Engine.ofName?
  | .record [(name, .null)] => name.text?.bind Engine.ofName?
  | _ => none

/-- The fields of a quote pair: those of a record, which may have others, or of a list of two. -/
def quoteFields? : Document → Option (List (String × Document))
  | .record members => fields? ["left", "right"] false members
  | .list items => listed? ["left", "right"] items
  | _ => none

/-- The two delimiters, each a string of one character. -/
def Quotes.ofDocument? (d : Document) : Option Quotes := do
  let fields ← quoteFields? d
  let left ← charOf? (← fields.lookup "left")
  let right ← charOf? (← fields.lookup "right")
  return ⟨left, right⟩

/-- **The connection of a document.** -/
def Connection.ofDocument? (d : Document) : Option Connection := do
  let fields ← strictFields? ["kind", "table_prefix", "quote"] d
  let engine ← field? fields "kind" .generic Engine.ofDocument?
  let tablePrefix ← field? fields "table_prefix" "" textOf?
  let quotes ← field? fields "quote" none (nullable? Quotes.ofDocument?)
  return ⟨engine, tablePrefix, quotes⟩

/-- Connections by name; a repeated name replaces the one before. -/
def connections? (members : List (RawText × Document)) :
    Option (Std.ExtTreeMap String Connection) :=
  members.foldlM (fun all (name, d) => do
    let name ← name.text?
    let c ← Connection.ofDocument? d
    return all.insert name c) ∅

/-- The connections of a record. -/
def connectionsOf? : Document → Option (Std.ExtTreeMap String Connection)
  | .record members => connections? members
  | _ => none

/-- **The registry of a document.** -/
def Registry.ofDocument? (d : Document) : Option Registry := do
  let fields ← strictFields? ["default", "connections"] d
  let default ← field? fields "default" none (nullable? textOf?)
  let connections ← field? fields "connections" ∅ connectionsOf?
  return ⟨default, connections⟩

/-- **The connection that a text describes.** -/
def Connection.parse? (text : String) : Option Connection :=
  (Document.parse? none text).bind Connection.ofDocument?

/-- **The registry that a text describes.** -/
def Registry.parse? (text : String) : Option Registry :=
  (Document.parse? none text).bind Registry.ofDocument?

end PortableSql
