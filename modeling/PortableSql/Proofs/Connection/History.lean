import Mathlib.Data.List.Induction
import PortableSql.Connection.Registry

/-!
# The history of a registry

What a registry answers can be told from the registry that it started as and the calls since then.
A name has the connection that it was given last; the default is the one set last, and without one
the first name that was registered.

* `Registry.Step`, `Registry.run`: calls that change a registry, as data.
* `Registry.given`, `Registry.chosen`, `Registry.registered`: what the calls of a run say, in order.
* **`Registry.connectionAfter`**, **`Registry.defaultAfter`**: the connection of a name and the
  default name, read off the calls.
* `Registry.getElem?_run`, `Registry.default_run`: a registry has just these.
* **`Registry.run_follows_history`**: look-ups, the default connection and the names after any
  calls.
-/

namespace PortableSql.Registry

/-- A call that changes a registry. -/
inductive Step where
  | register (name : String) (c : Connection)
  | setDefault (name : String)

/-- The registry after one more call. -/
def step (r : Registry) : Step → Registry
  | .register name c => r.register name c
  | .setDefault name => r.setDefault name

/-- The registry after calls in order. -/
def run (r : Registry) (steps : List Step) : Registry := steps.foldl step r

/-! ## What calls say -/

/-- The connection that a call gives to a name. -/
def Step.given? (name : String) : Step → Option Connection
  | .register n c => if n = name then some c else none
  | .setDefault _ => none

/-- The name that a call makes the default, whatever the default was. -/
def Step.chosen? : Step → Option String
  | .register _ _ => none
  | .setDefault name => some name

/-- The name that a call registers. -/
def Step.registered? : Step → Option String
  | .register name _ => some name
  | .setDefault _ => none

/-- The connections that a name is given, in order. -/
def given (name : String) (steps : List Step) : List Connection :=
  steps.filterMap (Step.given? name)

/-- The names that are made the default, in order. -/
def chosen (steps : List Step) : List String := steps.filterMap Step.chosen?

/-- The names that are registered, in order and with repetitions. -/
def registered (steps : List Step) : List String := steps.filterMap Step.registered?

/-- **The connection of a name after calls**: the last one that it was given, or the one that it
had at the start. -/
def connectionAfter (start : Registry) (steps : List Step) (name : String) : Option Connection :=
  (given name steps).getLast?.or start.connections[name]?

/-- **The default name after calls**: the last one that was chosen, or the one at the start, or the
first one that was registered. -/
def defaultAfter (start : Registry) (steps : List Step) : Option String :=
  ((chosen steps).getLast?.or start.default).or (registered steps).head?

/-! ## One more call -/

section

variable (steps : List Step) (name : String)

theorem given_concat (s : Step) :
    given name (steps ++ [s]) = given name steps ++ (s.given? name).toList := by
  rw [given, List.filterMap_append]
  cases h : s.given? name <;> simp [given, h]

theorem chosen_register (c : Connection) :
    chosen (steps ++ [.register name c]) = chosen steps := by
  rw [chosen, List.filterMap_append]
  exact List.append_nil _

theorem chosen_setDefault : chosen (steps ++ [.setDefault name]) = chosen steps ++ [name] := by
  rw [chosen, List.filterMap_append]
  rfl

theorem registered_register (c : Connection) :
    registered (steps ++ [.register name c]) = registered steps ++ [name] := by
  rw [registered, List.filterMap_append]
  rfl

theorem registered_setDefault :
    registered (steps ++ [.setDefault name]) = registered steps := by
  rw [registered, List.filterMap_append]
  exact List.append_nil _

end

/-! ## The state of a registry -/

section

variable (start : Registry) (steps : List Step)

theorem run_concat (s : Step) : start.run (steps ++ [s]) = (start.run steps).step s := by
  rw [run, run, List.foldl_append]
  rfl

/-- **A name has the connection that it was given last.** -/
theorem getElem?_run (name : String) :
    (start.run steps).connections[name]? = connectionAfter start steps name := by
  induction steps using List.reverseRecOn with
  | nil => rfl
  | append_singleton steps s ih =>
    rw [run_concat, connectionAfter, given_concat]
    cases s with
    | register n c =>
      rw [step, register, Std.ExtTreeMap.getElem?_insert]
      by_cases hn : n = name
      · simp [Step.given?, hn]
      · simpa [Step.given?, hn, connectionAfter] using ih
    | setDefault n => simpa [Step.given?, step, setDefault, connectionAfter] using ih

/-- **The default is the one chosen last.** Only where there is none does a registration decide, so
that the first one counts. -/
theorem default_run : (start.run steps).default = defaultAfter start steps := by
  induction steps using List.reverseRecOn with
  | nil => exact (Option.or_none ..).symm
  | append_singleton steps s ih =>
    rw [run_concat, defaultAfter]
    cases s with
    | register n c =>
      have hdefault (d : Option String) : some (d.getD n) = d.or (some n) := by cases d <;> rfl
      rw [step, register, ih, hdefault, chosen_register, registered_register, List.head?_append,
        ← Option.or_assoc]
      rfl
    | setDefault n =>
      rw [chosen_setDefault, List.getLast?_concat]
      rfl

/-- The names after calls are those of the start and those registered since. -/
theorem mem_names_run (name : String) :
    name ∈ (start.run steps).names ↔ name ∈ start.names ∨ name ∈ registered steps := by
  rw [names, names, Std.ExtTreeMap.mem_keys, Std.ExtTreeMap.mem_keys]
  induction steps using List.reverseRecOn with
  | nil => simp [run, registered]
  | append_singleton steps s ih =>
    rw [run_concat]
    cases s with
    | register n c =>
      rw [step, register, Std.ExtTreeMap.mem_insert, ih, registered_register, List.mem_append,
        List.mem_singleton, Std.compare_eq_iff_eq, eq_comm, or_comm, or_assoc]
    | setDefault n => rwa [registered_setDefault]

/-- The names stand in order, each once. -/
theorem pairwise_names (r : Registry) : r.names.Pairwise (· < ·) :=
  r.connections.ordered_keys.imp fun h => compareOfLessAndEq_eq_lt.mp h

end

/-- What a look-up answers. -/
def found (name : String) : Option Connection → Except RegistryError Connection
  | some c => .ok c
  | none => .error (.unknownConnection name)

/-- **A registry answers by its history.** Let a registry start with any connections and any
default, which may be missing or name no connection, and let connections be registered and defaults
be set in any order. Then the connection of a name is the last one that it was given, or the one
from the start, and without one its look-up fails with the name. The default name is the last one
that was set, or the one from the start, or the first one that was registered; without a default
name the look-up of the default connection fails for that reason, and with one it is the look-up of
that name, also where no connection has it. The names are all names from the start and all that
were registered, in increasing order and each once. -/
theorem run_follows_history (start : Registry) (steps : List Step) :
    let r := start.run steps
    (∀ name, r.get name = found name (connectionAfter start steps name)) ∧
      r.default = defaultAfter start steps ∧
      (r.defaultConnection = match defaultAfter start steps with
        | none => .error .noDefault
        | some name => found name (connectionAfter start steps name)) ∧
      r.names.Pairwise (· < ·) ∧
      ∀ name, name ∈ r.names ↔ name ∈ start.names ∨ name ∈ registered steps := by
  intro r
  have hget (name : String) : r.get name = found name (connectionAfter start steps name) := by
    rw [get, getElem?_run]
    cases connectionAfter start steps name <;> rfl
  refine ⟨hget, default_run start steps, ?_, pairwise_names r, mem_names_run start steps⟩
  rw [defaultConnection, default_run]
  cases defaultAfter start steps with
  | none => rfl
  | some name => exact hget name

end PortableSql.Registry
