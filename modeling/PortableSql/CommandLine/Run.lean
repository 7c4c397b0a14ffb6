import PortableSql.CommandLine.Arguments
import PortableSql.Connection.Document
import PortableSql.Json.Print
import PortableSql.Parameter.Document
import PortableSql.Render.Compile
import PortableSql.Render.Prepare

/-!
# Running a request

* `CommandError`: why a request fails, with `CommandError.message`.
* `Request.connection`: the connection of a request, from its configuration file or its options.
* `Request.output`: the lines that a request prints.
* `Outcome`, **`run`**: exit code, printed text and error of a command line.
-/

namespace PortableSql.CommandLine

/-- Why a request fails. -/
inductive CommandError where
  | unreadable (path : String)
  | invalidConfiguration
  | registry (e : RegistryError)
  | parameters (e : ParameterError)
  | render (e : RenderError)
  deriving Repr, DecidableEq

/-- The wording of the error. -/
def CommandError.message : CommandError → String
  | .unreadable path => "reading " ++ path
  | .invalidConfiguration => "invalid connection configuration"
  | .registry e => e.message
  | .parameters e => e.message
  | .render e => e.message

/-- The registry of a configuration file. -/
def registryOf (files : String → Option String) (path : String) : Except CommandError Registry :=
  match files path with
  | none => .error (.unreadable path)
  | some text => match Registry.parse? text with
    | none => .error .invalidConfiguration
    | some r => .ok r

/-- The connection that the options ask for, without their table prefix. A configuration file takes
the place of the engine given. -/
def Globals.baseConnection (g : Globals) (files : String → Option String) :
    Except CommandError Connection :=
  match g.config with
  | none => .ok { engine := g.engine.getD .generic }
  | some path => do
    let r ← registryOf files path
    match g.connection with
    | some name => (r.get name).mapError .registry
    | none => r.defaultConnection.mapError .registry

/-- **The connection that the options ask for.** -/
def Globals.connectionOf (g : Globals) (files : String → Option String) :
    Except CommandError Connection := do
  let c ← g.baseConnection files
  return { c with tablePrefix := g.tablePrefix.getD c.tablePrefix }

/-- The text that a task prints for a value. -/
def Task.render (task : Task) (d : Dialect) (v : Value) : Except RenderError String := do
  match task with
  | .compile => return (← v.compile d) ++ "\n"
  | .flatten =>
    let p ← v.prepare d
    return p.sql ++ "\n" ++ Json.ofLiterals p.binds ++ "\n"

/-- **The text that a request prints.** -/
def Request.output (r : Request) (files : String → Option String) :
    Except CommandError String := do
  let c ← r.globals.connectionOf files
  let e ← (Expression.ofDocuments r.template r.positional r.named).mapError .parameters
  (r.task.render (.configured c) (.expression e)).mapError .render

/-- How a run ends. -/
structure Outcome where
  code : Nat
  output : String
  error : Option String := none
  deriving Repr, DecidableEq

/-- What `--version` prints. -/
def versionLine : String := "oxide-query 0.1.0\n"

/-- **The outcome of a command line.** A refused command line ends with code 2, a request that fails
with code 1. -/
def run (args : List String) (environment : Option String) (files : String → Option String) :
    Outcome :=
  match Invocation.ofArguments args environment with
  | .refused => ⟨2, "", none⟩
  | .version => ⟨0, versionLine, none⟩
  | .request r => match r.output files with
    | .ok text => ⟨0, text, none⟩
    | .error e => ⟨1, "", some e.message⟩

/-- The configuration file that a command line asks for. -/
def configPath (args : List String) (environment : Option String) : Option String :=
  match Invocation.ofArguments args environment with
  | .request r => r.globals.config
  | _ => none

end PortableSql.CommandLine
