import QueryMachine.Number.Double

/-!
Numbers of either kind: unbounded integers and doubles. Two integers combine exactly; as soon as a
double takes part, the integer is rounded to a double first. Comparison is always exact.
-/

namespace QueryMachine

inductive Number
  | int (n : Int)
  | real (x : Double)
  deriving Repr, DecidableEq, Inhabited

/-- The order of a finite double and an integer, by their exact values. -/
def Double.cmpInt (x : Double) (n : Int) : Ordering :=
  let s := x.scaled
  let m : Int := if x.neg then -(s.mant : Int) else s.mant
  if 0 ≤ s.exp then compare (m * Nat.pow 2 s.exp.toNat) n else compare m (n * Nat.pow 2 (-s.exp).toNat)

namespace Number

def toDouble : Number → Double
  | .int n => .ofInt n
  | .real x => x

def isNaN : Number → Bool
  | .int _ => false
  | .real x => x.isNaN

def isZero : Number → Bool
  | .int n => n == 0
  | .real x => x.isZero

def add : Number → Number → Number
  | .int a, .int b => .int (a + b)
  | a, b => .real (a.toDouble.add b.toDouble)

def sub : Number → Number → Number
  | .int a, .int b => .int (a - b)
  | a, b => .real (a.toDouble.sub b.toDouble)

def mul : Number → Number → Number
  | .int a, .int b => .int (a * b)
  | a, b => .real (a.toDouble.mul b.toDouble)

/-- The quotient as a double; of two integers it is rounded once. -/
def div : Number → Number → Double
  | .int a, .int b =>
    if a = 0 then .zero
    else .ofScaled ((a < 0) != (b < 0)) (Scaled.div 53 (.ofNat a.natAbs) (.ofNat b.natAbs))
  | a, b => a.toDouble.div b.toDouble

/-- The order of two numbers; a NaN has none. -/
def cmp? : Number → Number → Option Ordering
  | .int a, .int b => some (compare a b)
  | .real x, .real y => if x.isNaN || y.isNaN then none else some (compare x.key y.key)
  | .real x, .int b =>
    if x.isNaN then none
    else if x.isInf then some (if x.neg then .lt else .gt)
    else some (x.cmpInt b)
  | .int a, .real y =>
    if y.isNaN then none
    else if y.isInf then some (if y.neg then .gt else .lt)
    else some (y.cmpInt a).swap

def lt (a b : Number) : Bool := a.cmp? b == some .lt

def gt (a b : Number) : Bool := a.cmp? b == some .gt

def eq (a b : Number) : Bool := a.cmp? b == some .eq

def le (a b : Number) : Bool := a.lt b || a.eq b

def ge (a b : Number) : Bool := a.gt b || a.eq b

end Number

end QueryMachine
