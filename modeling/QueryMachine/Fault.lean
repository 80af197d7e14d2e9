/-!
Why a step of the machine is given up. A fault leaves the state as it was reached.
-/

namespace QueryMachine

inductive Fault
  /-- Something the machine relies on does not hold; the text names it, if it has a name. -/
  | assertion (what : String)
  | unknownRegister
  | unknownVariable
  | unimplemented (code : Nat)
  | busy
  /-- A parameter is bound on which the way the program works depends. -/
  | expiring
  | functionFailed (what : String)
  | integerRange
  | outOfRange
  /-- A part that is asked for is not there. -/
  | absent
  | badValue
  | divisionByZero
  | wrongType (what : String)
  | notProvided (what : String)
  | missingFile
  | tooManySteps
  deriving Repr, DecidableEq, Inhabited

namespace Fault

def message : Fault → String
  | .assertion what => what
  | .unknownRegister => "unknown mem location"
  | .unknownVariable => "unknown var location"
  | .unimplemented code => s!"Unimplemented bytecode {code}."
  | .busy => "bind on a busy prepared statement"
  | .expiring => "XXX expiry not supported :-("
  | .functionFailed what => what
  | .wrongType what => what
  | .notProvided what => what
  | .tooManySteps => "too many opcodes"
  | .integerRange | .outOfRange | .absent | .badValue | .divisionByZero | .missingFile => ""

end Fault

/-- A position in a list of `size` entries; a negative one counts from the end. -/
def wrapIndex? (size : Nat) (i : Int) : Option Nat :=
  if 0 ≤ i then if i < size then some i.toNat else none
  else if 0 ≤ i + size then some (i + size).toNat else none

end QueryMachine
