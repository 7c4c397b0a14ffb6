import PortableSql.Dialect.Engine
import PortableSql.Name
import PortableSql.Text.Join

/-!
# Dialects

A dialect is an engine, the configuration of a connection, or either with another table prefix.

* `Connection`: an engine with a table prefix and, if need be, delimiters of its own.
* **`Dialect`**, with `engine`, `quotes` and `tablePrefix`.
* `Dialect.quote`: one quoted segment.
* `Dialect.qualifierText`, `Dialect.identifierText`, `Dialect.columnText`, `Dialect.tableText`: the
  written forms of names. Only the base of a table takes the table prefix.
-/

namespace PortableSql

/-- The configuration of a connection. -/
structure Connection where
  engine : Engine := .generic
  tablePrefix : String := ""
  quotes : Option Quotes := none
  deriving Repr, DecidableEq

/-- **What decides how a statement is written.** -/
inductive Dialect where
  | builtin (engine : Engine)
  | configured (c : Connection)
  | prefixed (inner : Dialect) (tablePrefix : String)
  deriving Repr, DecidableEq

namespace Dialect

/-- The engine that the dialect is for. -/
def engine : Dialect → Engine
  | .builtin e => e
  | .configured c => c.engine
  | .prefixed inner _ => inner.engine

/-- The delimiters of quoted names; a connection may have its own. -/
def quotes : Dialect → Quotes
  | .builtin e => e.quotes
  | .configured c => c.quotes.getD c.engine.quotes
  | .prefixed inner _ => inner.quotes

/-- The text before every table name; the outermost one given counts. -/
def tablePrefix : Dialect → String
  | .builtin _ => ""
  | .configured c => c.tablePrefix
  | .prefixed _ p => p

/-- The inside of a text literal. -/
def escape (d : Dialect) (s : String) : String := d.engine.escape s

/-- The mark of the bound value at `position`, counted from one. -/
def placeholder (d : Dialect) (position : Nat) : String := d.engine.placeholder position

/-! ## Names -/

/-- **One quoted segment**: closing delimiters inside it are doubled. -/
def quote (d : Dialect) (s : String) : String :=
  d.quotes.left.toString ++ Text.doubled d.quotes.right s ++ d.quotes.right.toString

/-- The quoted base of a table, with the table prefix. -/
def quoteTable (d : Dialect) (base : String) : String := d.quote (d.tablePrefix ++ base)

/-- A qualifier with the dot that ends it. -/
def qualifierText (d : Dialect) : Qualifier → String
  | .none => ""
  | .segments parts => Text.join "." (parts.map d.quote) ++ "."
  | .identifier base outer => d.qualifierText outer ++ d.quote base ++ "."
  | .table base outer => d.qualifierText outer ++ d.quoteTable base ++ "."

/-- An identifier, which never takes the table prefix. -/
def identifierText (d : Dialect) (n : Name) : String :=
  d.qualifierText n.qualifier ++ d.quote n.base

/-- A column; `*` stands for all columns and is not quoted. -/
def columnText (d : Dialect) (n : Name) : String :=
  d.qualifierText n.qualifier ++ if n.base = "*" then "*" else d.quote n.base

/-- A table, with the table prefix before its base. -/
def tableText (d : Dialect) (n : Name) : String :=
  d.qualifierText n.qualifier ++ d.quoteTable n.base

end Dialect

end PortableSql
