import QueryMachine.Number.Scaled
import QueryMachine.Number.Word

/-!
Doubles as their 64-bit interchange form, with every operation computed exactly and rounded once.
The order on doubles that are not NaN is the order of `Double.key`.
-/

namespace QueryMachine

structure Double where
  bits : UInt64
  deriving Repr, DecidableEq, Inhabited

namespace Double

def signBit : Nat := 9223372036854775808

/-- The weight of the lowest bit of the exponent, and of the digit before the point. -/
def hiddenBit : Nat := 4503599627370496

def neg (x : Double) : Bool := signBit ≤ x.bits.toNat

def magnitude (x : Double) : Nat := x.bits.toNat % signBit

/-- The magnitude of an infinity; larger ones are NaN. -/
def infMagnitude : Nat := 2047 * hiddenBit

def isNaN (x : Double) : Bool := infMagnitude < x.magnitude

def isInf (x : Double) : Bool := x.magnitude == infMagnitude

def isFinite (x : Double) : Bool := x.magnitude < infMagnitude

def isZero (x : Double) : Bool := x.magnitude == 0

def ofMagnitude (neg : Bool) (m : Nat) : Double :=
  ⟨UInt64.ofNat (m + if neg then signBit else 0)⟩

def zero : Double := ⟨0⟩

def inf (neg : Bool) : Double := ofMagnitude neg infMagnitude

/-- What an invalid operation gives. -/
def nan : Double := ⟨0xfff8000000000000⟩

def quiet (x : Double) : Double := ⟨x.bits ||| 0x0008000000000000⟩

/-- Doubles that are not NaN are ordered by this number; both zeros have key zero. -/
def key (x : Double) : Int := if x.neg then -(x.magnitude : Int) else x.magnitude

def lt (x y : Double) : Bool := !x.isNaN && !y.isNaN && decide (x.key < y.key)

def le (x y : Double) : Bool := !x.isNaN && !y.isNaN && decide (x.key ≤ y.key)

def beq (x y : Double) : Bool := !x.isNaN && !y.isNaN && decide (x.key = y.key)

/-- The exact absolute value of a finite double. -/
def scaled (x : Double) : Scaled :=
  let field : Nat := x.magnitude / hiddenBit
  let frac : Nat := x.magnitude % hiddenBit
  if field = 0 then ⟨frac, -1074⟩ else ⟨frac + hiddenBit, (field : Int) - 1075⟩

/-- The magnitude of the double nearest to `x`. -/
def roundMagnitude (x : Scaled) : Nat :=
  let y := x.round 53 (-1074)
  if y.mant = 0 then 0
  else if Scaled.bitLength y.mant ≤ 53 then
    let k := min (53 - Scaled.bitLength y.mant : Int) (y.exp + 1074)
    let e := y.exp - k
    if e + 1075 ≥ 2047 then infMagnitude
    else (e + 1074).toNat * hiddenBit + y.mant * Nat.pow 2 k.toNat
  else
    let e := y.exp + 1
    if e + 1075 ≥ 2047 then infMagnitude
    else (e + 1074).toNat * hiddenBit + y.mant / 2

def ofScaled (neg : Bool) (x : Scaled) : Double := ofMagnitude neg (roundMagnitude x)

def ofInt (n : Int) : Double := ofScaled (n < 0) ⟨n.natAbs, 0⟩

/-- The double nearest to `m * 10 ^ e`. -/
def ofDecimal (neg : Bool) (m : Nat) (e : Int) : Double :=
  ofScaled neg (Scaled.ofDecimal 53 m e)

def negate (x : Double) : Double := ⟨x.bits ^^^ 0x8000000000000000⟩

def add (x y : Double) : Double :=
  if x.isNaN then x.quiet
  else if y.isNaN then y.quiet
  else if x.isInf then if y.isInf && x.neg != y.neg then nan else x
  else if y.isInf then y
  else if x.neg == y.neg then ofScaled x.neg (x.scaled.add y.scaled)
  else match x.scaled.cmp y.scaled with
    | .gt => ofScaled x.neg (x.scaled.sub y.scaled)
    | .lt => ofScaled y.neg (y.scaled.sub x.scaled)
    | .eq => zero

def sub (x y : Double) : Double := if y.isNaN then x.add y else x.add y.negate

def mul (x y : Double) : Double :=
  let s := x.neg != y.neg
  if x.isNaN then x.quiet
  else if y.isNaN then y.quiet
  else if x.isInf || y.isInf then if x.isZero || y.isZero then nan else inf s
  else ofScaled s (x.scaled.mul y.scaled)

def div (x y : Double) : Double :=
  let s := x.neg != y.neg
  if x.isNaN then x.quiet
  else if y.isNaN then y.quiet
  else if x.isInf then if y.isInf then nan else inf s
  else if y.isInf then ofMagnitude s 0
  else if y.isZero then if x.isZero then nan else inf s
  else if x.isZero then ofMagnitude s 0
  else ofScaled s (Scaled.div 53 x.scaled y.scaled)

/-- The integer part; an infinity and a NaN have none. -/
def trunc? (x : Double) : Option Int :=
  if x.isFinite then some (if x.neg then -(x.scaled.floor : Int) else x.scaled.floor) else none

/-- The integer part, kept inside 64 bits; a NaN and what does not fit go to the smallest. -/
def toInt64Wide (x : Double) : Int :=
  match x.trunc? with
  | some n => if minWord ≤ n ∧ n ≤ maxWord then n else minWord
  | none => minWord

/-- The integer part, or the nearest end of the 64-bit range. -/
def toInt64Clamped (x : Double) : Int :=
  if x.isNaN then minWord
  else if x.key ≤ (ofInt minWord).key then minWord
  else if (ofInt (maxWord + 1)).key ≤ x.key then maxWord
  else x.trunc?.getD 0

end Double

end QueryMachine
