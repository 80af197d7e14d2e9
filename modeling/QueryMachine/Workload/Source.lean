import QueryMachine.Dispatch.Extract

/-!
Program texts with a dispatching `switch` of any number of arms, and what becomes of one of them. The
arms take turns: a label that shares the arm of the next one, a plain arm, an arm that falls through, an
arm under a condition with more than one `break`, and an arm with a remark behind it.
-/

namespace QueryMachine.Workload

/-- The number of an arm, with at least three digits. -/
def armNumber (i : Nat) : String :=
  let digits := toString i
  String.ofList (List.replicate (3 - digits.length) '0') ++ digits

def armName (i : Nat) : String := "OP_Case" ++ armNumber i

def armHead (i : Nat) : String := "case " ++ armName i ++ ": \x7b"

def remarkedArm (i : Nat) : List String :=
  [armHead i, "  z = 2;", "  break;", "\x7d", "/*", "** comment", "*/"]

/-- The lines of the arm with number `i` out of `n`. -/
def arm (n i : Nat) : List String :=
  match i % 5 with
  | 0 => if i + 1 < n then ["case " ++ armName i ++ ":"] else remarkedArm i
  | 1 => [armHead i, "  x += 1;", "  break;", "\x7d", ""]
  | 2 => [armHead i, "  /* Fall through to " ++ armName (i + 1) ++ " */", "  break;", "\x7d"]
  | 3 =>
    ["#if defined(EXTRA)", armHead i, "  y = 0; break;", "  break;",
      "  z = 1;  /* plain code after break */", "  break;", "\x7d", "#endif"]
  | _ => remarkedArm i

/-- A program text with `n` arms. -/
def source (n : Nat) : List String :=
  ["", "int sqlite3VdbeExec(Vdbe *p) \x7b", "  switch( pOp->opcode )\x7b"] ++
    (List.range n).flatMap (arm n) ++ ["  default: break;", "  \x7d", "\x7d"]

structure SourceReport where
  /-- How often a `break` that ends its arm was seen to do so. -/
  removed : Nat
  size : Nat
  first : List String
  last : List String
  deriving Repr, DecidableEq, Inhabited

/-- Takes a text with six arms apart, and looks `n` times at its first `break`. -/
def sourceReport (n : Nat) : Except Fault SourceReport := do
  let lines := (source 6).map String.toList
  let out ← Dispatch.extract lines
  let array := lines.toArray
  let (_, stop) := Dispatch.region array
  let pos := (array.findIdx? Dispatch.isBreak).getD 0
  let seen ← (List.range n).mapM fun _ => Dispatch.breakEnds array pos stop
  let text := out.map String.ofList
  return { removed := seen.count true, size := text.length, first := text.take 4,
           last := text.drop (text.length - 4) }

end QueryMachine.Workload
