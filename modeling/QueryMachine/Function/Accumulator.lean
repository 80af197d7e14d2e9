import QueryMachine.Cell.Content

/-!
What an aggregate keeps between two rows when it works in place, inside the register of its result.
-/

namespace QueryMachine

/-- A sum that is kept as an integer for as long as that is exact. -/
structure RunningSum where
  real : Double := .zero
  int : Int := 0
  count : Nat := 0
  overflow : Bool := false
  approx : Bool := false
  deriving Repr, DecidableEq, Inhabited

namespace RunningSum

/-- Adds an integer. The integer sum stops at the first overflow or double. -/
def addInt (s : RunningSum) (v : Int) : RunningSum :=
  let next := { s with count := s.count + 1, real := s.real.add (.ofInt v) }
  if s.approx || s.overflow then next
  else if fitsWord (s.int + v) then { next with int := s.int + v }
  else { next with overflow := true }

def addReal (s : RunningSum) (x : Double) : RunningSum :=
  { s with count := s.count + 1, real := s.real.add x, approx := true }

/-- The sum divided by the number of what was added. -/
def mean (s : RunningSum) : Double := s.real.div (.ofInt s.count)

end RunningSum

inductive Accumulator
  | blank
  | count (n : Nat)
  | sum (s : RunningSum)
  | best (c : Content)
  | joined (bytes : Bytes)
  deriving Repr, DecidableEq, Inhabited

end QueryMachine
