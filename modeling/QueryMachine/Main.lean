import QueryMachine.Dispatch.File

/-!
The command line: the functions for the arms in the first file replace the second file.
-/

namespace QueryMachine.Dispatch

def readText? (path : String) : IO (Option (List Char)) := do
  try return some (← IO.FS.readFile path).toList
  catch _ => return none

def removeText (path : String) : IO Unit := do
  try IO.FS.removeFile path
  catch _ => return

def complaint : Fault → String
  | .missingFile => "the program text cannot be read"
  | .outOfRange => "two file names are needed"
  | .absent => "an arm has no label"
  | e => e.message

/-- Says how a run ended; answers the exit code. -/
def report : Option Fault → IO UInt32
  | none => return 0
  | some e => do
    IO.eprintln (complaint e)
    return 1

/-- Obeys the command line. The old output goes away before the input is looked for. -/
def command (args : List String) : IO UInt32 := do
  match args with
  | input :: output :: _ =>
    removeText output
    let result := run args.length (← readText? input) none
    for text in result.out do IO.FS.writeFile output (String.ofList text)
    report result.fault
  | _ => report (run args.length none none).fault

end QueryMachine.Dispatch

def main (args : List String) : IO UInt32 := QueryMachine.Dispatch.command args
