import QueryMachine.Dispatch.Extract

/-!
The extraction as it works on files: a program text is read, an output file is replaced by the
functions that were found.
-/

namespace QueryMachine.Dispatch

/-- One end of line in place of every kind of it. -/
def unifyNewlines : List Char → List Char
  | '\r' :: '\n' :: s => '\n' :: unifyNewlines s
  | '\r' :: s => '\n' :: unifyNewlines s
  | c :: s => c :: unifyNewlines s
  | [] => []

def endsLine (c : Char) : Bool :=
  let n := c.toNat
  (10 ≤ n && n ≤ 13) || (28 ≤ n && n ≤ 30) || n == 0x85 || n == 0x2028 || n == 0x2029

/-- The lines of a text, with `line` read already; a last line without an end counts if it is not
empty. -/
def splitLinesFrom (line : List Char) : List Char → List (List Char)
  | [] => if line.isEmpty then [] else [line.reverse]
  | c :: s =>
    if endsLine c then line.reverse :: splitLinesFrom [] s else splitLinesFrom (c :: line) s

def splitLines (text : List Char) : List (List Char) := splitLinesFrom [] text

def append (out : Option (List Char)) (lines : List (List Char)) : Option (List Char) :=
  some (out.getD [] ++ lines.flatMap (· ++ ['\n']))

/-- The output file after a run, and why the run was given up. -/
structure Outcome where
  out : Option (List Char)
  fault : Option Fault := none

/-- A run with `args` file names. The old output goes away before the input is looked for. -/
def run (args : Nat) (text old : Option (List Char)) : Outcome :=
  if args < 2 then { out := old, fault := some .outOfRange }
  else match text with
    | none => { out := none, fault := some .missingFile }
    | some text =>
      match extract (splitLines (unifyNewlines text)) with
      | .ok lines => { out := append none lines }
      | .error e => { out := none, fault := some e }

end QueryMachine.Dispatch
