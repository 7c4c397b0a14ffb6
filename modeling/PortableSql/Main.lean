import PortableSql.CommandLine.Run

/-!
# The program

* **`main`**: reads the configuration file that the command line asks for, runs the command line,
  and prints its outcome.
-/

open PortableSql

/-- The contents of a file, if it can be read as text. -/
def PortableSql.readText? (path : String) : IO (Option String) := do
  try return some (← IO.FS.readFile path) catch _ => return none

/-- **Runs the command line.** -/
def main (args : List String) : IO UInt32 := do
  let environment ← IO.getEnv "OXIDE_QUERY_CONFIG"
  let contents ← match CommandLine.configPath args environment with
    | some path => readText? path
    | none => pure none
  let outcome := CommandLine.run args environment fun _ => contents
  IO.print outcome.output
  match outcome.error with
  | some message => IO.eprintln ("Error: " ++ message)
  | none => pure ()
  return outcome.code.toUInt32
