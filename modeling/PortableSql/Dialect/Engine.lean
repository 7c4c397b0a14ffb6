import PortableSql.Text.Doubling

/-!
# Engines

The database engines whose SQL is written, and what each fixes.

* **`Engine`**, `Engine.name`, `Engine.ofName?`, `Engine.parse`: the engines and their names.
* `Quotes`, `Engine.quotes`: the delimiters of quoted names.
* `Engine.escape`: the inside of a text literal.
* `Engine.placeholder`: the mark of the n-th bound value.
-/

namespace PortableSql

/-- **A database engine.** -/
inductive Engine where
  | generic | mysql | postgres | sqlite | sqlserver
  deriving Repr, DecidableEq

/-- The two delimiters of a quoted name. -/
structure Quotes where
  left : Char
  right : Char
  deriving Repr, DecidableEq

/-- A text that names no engine. -/
structure UnknownEngine where
  text : String
  deriving Repr, DecidableEq

/-- The wording of the error. -/
def UnknownEngine.message (e : UnknownEngine) : String := "unknown dialect: " ++ e.text

namespace Engine

/-- The canonical name. -/
def name : Engine → String
  | .generic => "generic"
  | .mysql => "mysql"
  | .postgres => "postgres"
  | .sqlite => "sqlite"
  | .sqlserver => "sqlserver"

/-- The engine of a canonical name. -/
def ofName? (s : String) : Option Engine :=
  [generic, mysql, postgres, sqlite, sqlserver].find? (·.name = s)

/-- The engine of a second name that is in use beside the canonical one. -/
def ofAlias? (s : String) : Option Engine :=
  [("ansi", generic), ("mariadb", mysql), ("postgresql", postgres), ("pgsql", postgres),
   ("mssql", sqlserver), ("sqlsrv", sqlserver)].lookup s

/-- **The engine that a text names**, in any ASCII case. -/
def parse (text : String) : Except UnknownEngine Engine :=
  let s := text.toLower
  match (ofName? s).or (ofAlias? s) with
  | some e => .ok e
  | none => .error ⟨text⟩

/-- The delimiters of quoted names: grave accents, square brackets or double quotes. -/
def quotes : Engine → Quotes
  | .mysql => ⟨'\x60', '\x60'⟩
  | .sqlserver => ⟨'[', ']'⟩
  | _ => ⟨'"', '"'⟩

/-- **The inside of a text literal**: single quotes are doubled, and before that backslashes where
the engine reads them as escapes. -/
def escape : Engine → String → String
  | .mysql, s => Text.doubled '\'' (Text.doubled '\\' s)
  | _, s => Text.doubled '\'' s

/-- The mark of the bound value at `position`, counted from one. -/
def placeholder : Engine → Nat → String
  | .postgres, position => "$" ++ toString position
  | _, _ => "?"

end Engine

end PortableSql
