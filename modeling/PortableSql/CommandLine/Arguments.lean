import PortableSql.Dialect.Engine

/-!
# Arguments

Options come before the task and choose the dialect; the task takes one template and the documents
of its parameters.

Requests for help (`-h`, `--help` and the task `help`) are left out: what is printed for them is not
described here, and they are refused like every option or task that is unknown.

* `Word`: an argument as an escape, a long option, short options, or plain text.
* `Task`, `Setting`, `Globals`, `Parameters`: what the arguments say.
* `Globals.letters`, `Parameters.read`, `Globals.read`: the arguments from left to right.
* `Request`, **`Invocation.ofArguments`**: what is asked for, or a refusal.
-/

namespace PortableSql.CommandLine

/-! ## Words -/

/-- An argument by its form. A lone `-` is plain text. -/
inductive Word where
  | escape
  | long (name : List Char) (value : Option String)
  | short (letters : List Char)
  | plain
  deriving Repr, DecidableEq

/-- The name and the value of a long option, which an equals sign separates. -/
def longWord (cs : List Char) : Word :=
  match cs.dropWhile (· ≠ '=') with
  | [] => .long cs none
  | _ :: value => .long (cs.takeWhile (· ≠ '=')) (some (String.ofList value))

/-- The form of an argument. -/
def Word.of (arg : String) : Word :=
  match arg.toList with
  | ['-', '-'] => .escape
  | '-' :: '-' :: cs => longWord cs
  | ['-'] => .plain
  | '-' :: cs => .short cs
  | _ => .plain

/-! ## Options before the task -/

/-- What to do with the template. -/
inductive Task where
  | compile | flatten
  deriving Repr, DecidableEq

/-- The task of a name. -/
def Task.ofName? : String → Option Task
  | "compile" => some .compile
  | "flatten" => some .flatten
  | _ => none

/-- An option that takes a value. -/
inductive Setting where
  | dialect | tablePrefix | config | connection
  deriving Repr, DecidableEq

/-- The option of a long name. -/
def Setting.ofLong? (name : List Char) : Option Setting :=
  [("dialect", dialect), ("prefix", tablePrefix), ("config", config),
   ("connection", connection)].lookup (String.ofList name)

/-- The option of a letter. -/
def Setting.ofLetter? : Char → Option Setting
  | 'd' => some .dialect
  | 'p' => some .tablePrefix
  | 'c' => some .config
  | _ => none

/-- The values of the options before the task. -/
structure Globals where
  engine : Option Engine := none
  tablePrefix : Option String := none
  config : Option String := none
  connection : Option String := none
  verbose : Bool := false
  deriving Repr, DecidableEq

/-- A value for an option that has none yet. -/
def once {α : Type} (old : Option α) (new : α) : Option (Option α) :=
  match old with
  | none => some (some new)
  | some _ => none

/-- Gives an option its value; a second value, an unknown engine and an empty path are refused. -/
def Globals.set (g : Globals) (s : Setting) (value : String) : Option Globals :=
  match s with
  | .dialect => match Engine.parse value with
    | .ok e => (once g.engine e).map ({ g with engine := · })
    | .error _ => none
  | .tablePrefix => (once g.tablePrefix value).map ({ g with tablePrefix := · })
  | .config => if value = "" then none else (once g.config value).map ({ g with config := · })
  | .connection => (once g.connection value).map ({ g with connection := · })

/-- Turns verbosity on, once. -/
def Globals.setVerbose (g : Globals) : Option Globals :=
  if g.verbose then none else some { g with verbose := true }

/-! ## The task -/

/-- An option of a task. -/
inductive Document where
  | positional | named
  deriving Repr, DecidableEq

/-- The option of a long name. -/
def Document.ofLong? (name : List Char) : Option Document :=
  [("params", positional), ("named", named)].lookup (String.ofList name)

/-- The template of a task and the documents of its parameters. -/
structure Parameters where
  template : Option String := none
  positional : Option String := none
  named : Option String := none
  deriving Repr, DecidableEq

/-- Gives an option its value, once. -/
def Parameters.set (p : Parameters) (d : Document) (value : String) : Option Parameters :=
  match d with
  | .positional => (once p.positional value).map ({ p with positional := · })
  | .named => (once p.named value).map ({ p with named := · })

/-- Gives the template, once. -/
def Parameters.setTemplate (p : Parameters) (value : String) : Option Parameters :=
  (once p.template value).map ({ p with template := · })

/-- Reads the arguments after `--`, which are plain whatever their form. -/
def Parameters.readPlain (p : Parameters) : List String → Option Parameters
  | [] => some p
  | arg :: args => (p.setTemplate arg).bind fun p => p.readPlain args

/-- Reads the arguments of a task; `pending` is an option that waits for its value. -/
def Parameters.read (p : Parameters) (pending : Option Document) :
    List String → Option Parameters
  | [] => if pending.isSome then none else some p
  | arg :: args =>
    match Word.of arg, pending with
    | .plain, none => (p.setTemplate arg).bind fun p => p.read none args
    | .plain, some d => (p.set d arg).bind fun p => p.read none args
    | .escape, none => p.readPlain args
    | .long name (some value), none =>
      (Document.ofLong? name).bind fun d => (p.set d value).bind fun p => p.read none args
    | .long name none, none => (Document.ofLong? name).bind fun d => p.read (some d) args
    | _, _ => none

/-! ## The whole line -/

/-- What the program is asked to do. -/
structure Request where
  globals : Globals
  task : Task
  template : String
  positional : Option String
  named : Option String
  deriving Repr, DecidableEq

/-- **The meaning of the arguments.** -/
inductive Invocation where
  | refused
  | version
  | request (r : Request)
  deriving Repr, DecidableEq

/-- The outcome of a cluster of short options. -/
inductive Cluster where
  | refused
  | version
  | globals (g : Globals) (pending : Option Setting)
  deriving Repr, DecidableEq

/-- The value attached to a letter, without an equals sign before it. -/
def attached : List Char → String
  | '=' :: cs => String.ofList cs
  | cs => String.ofList cs

/-- Reads short options; the rest of the argument is the value of one that takes a value. -/
def Globals.letters (g : Globals) : List Char → Cluster
  | [] => .globals g none
  | c :: cs =>
    if c = 'V' then .version
    else if c = 'v' then
      match g.setVerbose with
      | some g => g.letters cs
      | none => .refused
    else match Setting.ofLetter? c with
      | none => .refused
      | some s =>
        if cs = [] then .globals g (some s)
        else match g.set s (attached cs) with
          | some g => .globals g none
          | none => .refused

/-- The request of a task, which must have a template. -/
def finish (g : Globals) (task : Task) (p : Option Parameters) : Invocation :=
  match p with
  | some ⟨some template, positional, named⟩ => .request ⟨g, task, template, positional, named⟩
  | _ => .refused

/-- Reads the arguments up to the task, and then the task; `pending` is an option that waits for its
value. -/
def Globals.read (g : Globals) (pending : Option Setting) : List String → Invocation
  | [] => .refused
  | arg :: args =>
    match Word.of arg, pending with
    | .plain, some s =>
      match g.set s arg with
      | some g => g.read none args
      | none => .refused
    | .plain, none =>
      match Task.ofName? arg with
      | some task => finish g task (Parameters.read {} none args)
      | none => .refused
    | .short cs, none =>
      match g.letters cs with
      | .refused => .refused
      | .version => .version
      | .globals g pending => g.read pending args
    | .long name none, none =>
      if name = "version".toList then .version
      else if name = "verbose".toList then
        match g.setVerbose with
        | some g => g.read none args
        | none => .refused
      else match Setting.ofLong? name with
        | some s => g.read (some s) args
        | none => .refused
    | .long name (some value), none =>
      match (Setting.ofLong? name).bind (g.set · value) with
      | some g => g.read none args
      | none => .refused
    | _, _ => .refused

/-- The request with the configuration of the environment, if the arguments give none. -/
def Request.withEnvironment (r : Request) (environment : Option String) : Invocation :=
  match r.globals.config, environment with
  | none, some path => match r.globals.set .config path with
    | some g => .request { r with globals := g }
    | none => .refused
  | _, _ => .request r

/-- **The meaning of a command line**, given the configuration file that the environment names. -/
def Invocation.ofArguments (args : List String) (environment : Option String) : Invocation :=
  match Globals.read {} none args with
  | .request r => r.withEnvironment environment
  | other => other

end PortableSql.CommandLine
