import EventLoop.CommandLine

/-!
# The program

Exit codes: 0 if the timeline was printed, even that of a script that fails; 1 if a file could not
be used; 2 if the command line was not understood.
-/

namespace EventLoop

/-- How a command line is written. -/
def usage : String :=
  "usage: run FILE [--format text|json] | show FILE --at N | " ++
    "play FILE [--interval-ms N] [--from N]\n" ++
    "options: --config FILE, --max-iterations N, --line-mode heuristic|call-site"

/-- The content of a file, if it can be read as text. -/
def readTextFile (path : String) : IO (Option String) := do
  try
    return some (← IO.FS.readFile path)
  catch _ =>
    return none

end EventLoop

open EventLoop in
def main (args : List String) : IO UInt32 := do
  match Invocation.ofArguments? args with
  | none =>
    IO.eprintln usage
    return 2
  | some invocation =>
    match ← invocation.perform readTextFile with
    | .error failure =>
      IO.eprintln s!"Error: {failure.message}"
      return 1
    | .ok pages =>
      let output ← IO.getStdout
      for page in pages do
        output.putStr page
        output.flush
        IO.sleep (UInt32.ofNat (min invocation.command.pause (UInt32.size - 1)))
      return 0
