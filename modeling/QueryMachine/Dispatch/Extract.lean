import QueryMachine.Dispatch.Text
import QueryMachine.Fault

/-!
Turns the arms of a dispatching `switch` into functions. The arms stand between the first line with
the word `switch` and the last line with the word `default`; each label becomes the head of a
function, and a `break` that ends its arm goes away.
-/

namespace QueryMachine.Dispatch

/-- A line that does not decide whether an arm ends: a comment, a closing brace, or nothing. -/
def isPassed (line : List Char) : Bool :=
  let s := skipBlanks line
  s.isEmpty || startsWith "**" s || startsWith "\x7d" s || startsWith "/*" s || startsWith "*/" s

/-- A line that shows that the arm before it has ended. -/
def endsArm (line : List Char) : Bool :=
  startsWith "case" line || startsWith "#if" line || startsWith "#endif" line

/-- Walks from position `i` up to `stop`, over at most `fuel` lines. The answer is yes at a line that
ends the arm, and also if the walk stops exactly at `stop`. -/
def breakEndsFrom (lines : Array (List Char)) (stop : Int) : Nat → Int → Except Fault Bool
  | 0, i => .ok (i == stop)
  | fuel + 1, i =>
    if i < stop then
      match (wrapIndex? lines.size i).bind (lines[·]?) with
      | none => .error .outOfRange
      | some line =>
        if endsArm line then .ok true
        else if isPassed line then breakEndsFrom lines stop fuel (i + 1)
        else .ok (i + 1 == stop)
    else .ok (i == stop)

/-- Whether the `break` at position `pos` ends its arm, in a region that stops at `stop`. -/
def breakEnds (lines : Array (List Char)) (pos stop : Int) : Except Fault Bool :=
  breakEndsFrom lines stop (stop - pos).toNat (pos + 1)

def label? (line : List Char) : Option (List Char) := do
  let rest ← dropWord? "case".toList line
  match rest with
  | c :: rest => if isBlank c then beforeLast (· == ':') rest else none
  | [] => none

def label (line : List Char) : Except Fault (List Char) :=
  match label? line with
  | some l => .ok l
  | none => .error .absent

def functionHead (label : List Char) : List Char :=
  "void impl_".toList ++ label ++ "(Vdbe *p, sqlite3 *db, int pc, Op *pOp) \x7b".toList

def functionCall (label : List Char) : List Char :=
  "  impl_".toList ++ label ++ "(p, db, pc, pOp);".toList

/-- A remark that one arm falls through to the next. -/
def isFallThrough (line : List Char) : Bool :=
  (search? (fun s => do
    let s ← blanks? s
    let s ← (dropWord? "Fall".toList s).orElse fun _ => dropWord? "fall".toList s
    let s ← blanks? s
    dropWord? "through".toList s) line).isSome

/-- The instruction that a line names after a blank and before another one. -/
def target? (line : List Char) : Option (List Char) :=
  search? (fun s => do
    let s ← blanks? s
    let s ← dropWord? "OP_".toList s
    beforeLast isBlank s) line

def isBreak (line : List Char) : Bool := startsWith "break;" (skipBlanks line)

/-- What becomes of the line at position `i`. -/
def renderLine (lines : Array (List Char)) (stop : Nat) (i : Nat) : Except Fault (List (List Char)) := do
  let line := lines.getD i []
  if startsWith "case" line then
    let following := lines.getD (i + 1) []
    if startsWith "case" following then
      let name ← label line
      let next ← label following
      return [functionHead name, functionCall next, ['\x7d']]
    else return [functionHead (← label line)]
  else match isFallThrough line, target? line with
    | true, some name => return [functionCall ("OP_".toList ++ name)]
    | _, _ =>
      if isBreak line then
        return if ← breakEnds lines i stop then [] else [line]
      else return [line]

/-- The region of the arms: behind the first line with `switch`, before the last with `default`. -/
def region (lines : Array (List Char)) : Nat × Nat :=
  let first := (lines.findIdx? (contains "switch")).getD lines.size
  let last := (lines.reverse.findIdx? (contains "default")).map (lines.size - 1 - ·)
  (first + 1, last.getD 0)

/-- The functions for the arms of a program text. -/
def extract (lines : List (List Char)) : Except Fault (List (List Char)) := do
  let lines := lines.toArray
  let (start, stop) := region lines
  let parts ← (List.range' start (stop - start)).mapM (renderLine lines stop)
  return parts.flatten

end QueryMachine.Dispatch
