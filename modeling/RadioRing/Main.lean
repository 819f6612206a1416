import RadioRing.Demo.Screen
import RadioRing.Demo.Start
import RadioRing.Deployment.Load
/-!
# Main — the command line

`demo` runs a simulated ring and shows a picture before every line of keys; `check` says what a node
would be told by its arguments, its environment and its settings file, or why it would not start.
-/

namespace RadioRing.CommandLine

/-- What the command can do. -/
def help : List String :=
  ["demo [--nodes N] [--loss P] [--tick-ms MS] [--speed STEPS] [--seed SEED]",
    "  shows a simulated ring; a line of keys gives the next picture",
    "check [--config FILE] [--node ID] [--universe ID,...] [--bind-host HOST] [--base-port PORT]",
    "    [--status-addr ADDRESS] [--loss P] [--data-dir DIRECTORY]",
    "  shows what a node would be told"]

/-- Prints lines. -/
def putLines (lines : List String) : IO Unit := lines.forM IO.println

/-- Says why nothing is done. -/
def refuse (reason : String) (code : UInt32) : IO UInt32 := do
  IO.eprintln ("error: " ++ reason)
  return code

/-- Lets time pass, shows a picture and reads a line of keys, until the watcher leaves. -/
partial def watch (input : IO.FS.Stream) (d : Demo (List DropRule)) : IO UInt32 := do
  match d.advance with
  | .error _ => refuse "a time lies out of range" 101
  | .ok d =>
    putLines ((d.picture 80 24).rows.map CellRow.text)
    let line ← input.getLine
    match d.type (line.toList.filter (· ≠ '\n')) with
    | .error _ => refuse "a time lies out of range" 101
    | .ok d => if d.finished || line.isEmpty then return 0 else watch input d

/-- Runs the demo. -/
def demo (args : List String) : IO UInt32 := do
  match DemoOptions.parse args with
  | .error .helpWanted => putLines help; return 0
  | .error e => refuse e.message 2
  | .ok o =>
    match o.start with
    | .error _ => refuse "a time lies out of range" 101
    | .ok (.error e) => refuse e.message 1
    | .ok (.ok d) => watch (← IO.getStdin) d

/-- The environment variables of the options of a node. -/
def environment : IO (List (String × String)) :=
  Deployment.specs.filterMapM fun spec => do
    match spec.envName with
    | none => return none
    | some name => return (← IO.getEnv name).map fun value => (name, value)

/-- The content of a file, if it can be read. -/
def contentOf (path : String) : IO (Option String) := do
  try return some (← IO.FS.readFile path) catch _ => return none

/-- Shows what a node would be told. -/
def check (args : List String) : IO UInt32 := do
  let found ← environment
  let content ← match Deployment.settingsFile? args found with
    | none => pure none
    | some path => contentOf path
  match Deployment.load (fun _ => content) args found with
  | .usage .helpWanted => putLines help; return 0
  | .usage e => refuse e.message 2
  | .refused e => refuse e.message 1
  | .fault _ => refuse "a time lies out of range" 101
  | .ready d _ =>
    IO.println (d.json fun loss => .text (Decimal.text .full loss)).render
    return 0

end RadioRing.CommandLine

/-- Runs the command that the arguments name. -/
def main (args : List String) : IO UInt32 := do
  match args with
  | "demo" :: rest => RadioRing.CommandLine.demo rest
  | "check" :: rest => RadioRing.CommandLine.check rest
  | _ => RadioRing.CommandLine.putLines RadioRing.CommandLine.help; return 2
