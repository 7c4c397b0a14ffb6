/-!
# Names

A name has a base and a qualifier that stands before it: dotted segments, or another identifier
or table with a qualifier of its own.

* `Qualifier`, **`Name`**.
* `Name.ofSegments`: the last segment is the base, the others qualify it.
* **`Name.dotted`**: the name whose segments are the parts of a text between its dots.
-/

namespace PortableSql

/-- What stands before the base of a name. -/
inductive Qualifier where
  | none
  | segments (parts : List String)
  | identifier (base : String) (outer : Qualifier)
  | table (base : String) (outer : Qualifier)
  deriving Repr, DecidableEq

/-- **A name with its qualifier.** -/
structure Name where
  base : String
  qualifier : Qualifier := .none
  deriving Repr, DecidableEq

namespace Name

/-- The parts of `cs` between its dots; there is always at least one. -/
def splitDots : List Char → List (List Char)
  | [] => [[]]
  | c :: cs =>
    if c = '.' then [] :: splitDots cs
    else match splitDots cs with
      | [] => [[c]]
      | part :: parts => (c :: part) :: parts

/-- The name whose base is the last segment; no segment at all gives the empty name. -/
def ofSegments (segments : List String) : Name :=
  match segments.reverse with
  | [] => ⟨"", .none⟩
  | [base] => ⟨base, .none⟩
  | base :: outer => ⟨base, .segments outer.reverse⟩

/-- **The name that a dotted text stands for.** -/
def dotted (text : String) : Name := ofSegments ((splitDots text.toList).map String.ofList)

/-- The name as the qualifier of another, where it stands for no table. -/
def asQualifier (n : Name) : Qualifier := .identifier n.base n.qualifier

/-- The table of this name as the qualifier of another name. -/
def asTableQualifier (n : Name) : Qualifier := .table n.base n.qualifier

end Name

end PortableSql
