import PortableSql.Dialect
import Std.Data.ExtTreeMap

/-!
# Registered connections

* **`Registry`**: connections by name, with the name of the default one.
* `Registry.register`, `Registry.setDefault`: the first name registered becomes the default unless
  one is set.
* `Registry.get`, `Registry.defaultConnection`: look-ups, with `RegistryError` for their failures.
-/

namespace PortableSql

/-- Why no connection is found. -/
inductive RegistryError where
  | unknownConnection (name : String)
  | noDefault
  deriving Repr, DecidableEq

/-- The wording of the error. -/
def RegistryError.message : RegistryError → String
  | .unknownConnection name => "unknown connection: " ++ name
  | .noDefault => "no default connection configured"

/-- **Connections by name.** The default may name a connection that does not exist. -/
structure Registry where
  default : Option String := none
  connections : Std.ExtTreeMap String Connection := ∅

namespace Registry

/-- Adds a connection or replaces it; it becomes the default if there is none. -/
def register (r : Registry) (name : String) (c : Connection) : Registry :=
  ⟨some (r.default.getD name), r.connections.insert name c⟩

/-- Makes a name the default. -/
def setDefault (r : Registry) (name : String) : Registry := { r with default := some name }

/-- **The connection with a name.** -/
def get (r : Registry) (name : String) : Except RegistryError Connection :=
  match r.connections[name]? with
  | some c => .ok c
  | none => .error (.unknownConnection name)

/-- **The default connection.** -/
def defaultConnection (r : Registry) : Except RegistryError Connection :=
  match r.default with
  | some name => r.get name
  | none => .error .noDefault

/-- The names of all connections, in increasing order. -/
def names (r : Registry) : List String := r.connections.keys

end Registry

end PortableSql
