import QueryMachine.Machine.Basic
import QueryMachine.Number.Overflow

/-!
Arithmetic on two registers. Two integers give an integer if the result fits into 64 bits; everything
else is computed with doubles.
-/

namespace QueryMachine

open Bank

inductive Arith
  | add
  | subtract
  | multiply
  | divide
  | remainder
  deriving Repr, DecidableEq, Inhabited

namespace Arith

def ofOpcode? : Opcode → Option Arith
  | .add => some .add
  | .subtract => some .subtract
  | .multiply => some .multiply
  | .divide => some .divide
  | .remainder => some .remainder
  | _ => none

/-- A divisor of minus one leaves no remainder, and neither does one. -/
def divisor (a : Int) : Int := if a = -1 then 1 else a

/-- What two words come to. -/
inductive Outcome
  /-- There is no divisor. -/
  | nothing
  | word (n : Int64)
  /-- The result is left to doubles. -/
  | beyond
  deriving Repr, DecidableEq, Inhabited

def Outcome.ofWord? : Option Int64 → Outcome
  | some n => .word n
  | none => .beyond

end Arith

namespace Tracked

/-- The exact result of `b op a`; division goes to the floor. There is none without a divisor. -/
def arithInt (op : Arith) (a b : Int) : Option Int :=
  match op with
  | .add => some (b + a)
  | .subtract => some (b - a)
  | .multiply => some (b * a)
  | .divide => if a = 0 then none else some (b.fdiv a)
  | .remainder => if a = 0 then none else some (b.fmod (Arith.divisor a))

/-- The result of `b op a` as a double, where integers stay exact for as long as they can. -/
def arithReal (op : Arith) (a b : Number) : BankM (Option Double) :=
  match op with
  | .add => pure (some (b.add a).toDouble)
  | .subtract => pure (some (b.sub a).toDouble)
  | .multiply => pure (some (b.mul a).toDouble)
  | .divide => pure (if a.isZero then none else some (b.div a))
  | .remainder => do
    let a ← truncate a
    let b ← truncate b
    return if a = 0 then none else some (.ofInt (b.fmod (Arith.divisor a)))

def arithmetic (op : Arith) (i : Instruction) : BankM Unit := do
  let left ← register i.p1
  let leftFlags ← flags left
  let leftType ← numericType left
  let right ← register i.p2
  let rightFlags ← flags right
  let rightType ← numericType right
  let out ← register i.p3
  if leftFlags.null || rightFlags.null then setNull out
  else
    let integers := leftType.int && rightType.int
    let exact : Option (Option Int) ←
      if integers then pure (some (arithInt op (← int left) (← int right))) else pure none
    match exact with
    | some none => setNull out
    | some (some n) =>
      if fitsWord n then
        let constant := (← isConstantInt left) && (← isConstantInt right)
        setInt out n constant
        retype out .onlyInt
      else inReals left right out true
    | none => inReals left right out (leftType.real || rightType.real)
where
  inReals (left right out : Nat) (keepReal : Bool) : BankM Unit := do
    let a ← realValue left
    let b ← realValue right
    match ← arithReal op a b with
    | none => setNull out
    | some x =>
      if x.isNaN then setNull out
      else
        setReal out (.real x) false
        retype out .onlyReal
        if !keepReal then discard (integerAffinity out)

end Tracked

namespace Direct

/-- The result of `b op a`; division goes towards zero. -/
def arithWord (op : Arith) (a b : Int64) : Arith.Outcome :=
  match op with
  | .add => .ofWord? (Word.sum? b a)
  | .subtract => .ofWord? (Word.difference? b a)
  | .multiply => .ofWord? (Word.product? b a)
  | .divide =>
    if a = 0 then .nothing else if a = -1 ∧ b = Int64.minValue then .beyond else .word (b / a)
  | .remainder => if a = 0 then .nothing else .word (b % if a = -1 then 1 else a)

def arithReal (op : Arith) (a b : Double) : Option Double :=
  match op with
  | .add => some (b.add a)
  | .subtract => some (b.sub a)
  | .multiply => some (b.mul a)
  | .divide => if a.isZero then none else some (b.div a)
  | .remainder =>
    let a := a.toInt64Wide
    let b := b.toInt64Wide
    if a = 0 then none else some (.ofInt (b.tmod (Arith.divisor a)))

def arithmetic (op : Arith) (i : Instruction) : BankM Unit := do
  let left ← slot i.p1
  let (leftType, c) := (← cell left).numericType
  setCell left c
  let right ← slot i.p2
  let (rightType, c) := (← cell right).numericType
  setCell right c
  let out ← slot i.p3
  let a ← cell left
  let b ← cell right
  if a.flags.null || b.flags.null then modifyCell out Cell.setNull
  else if leftType.int && rightType.int then
    match arithWord op a.payload.toInt64 b.payload.toInt64 with
    | .nothing => modifyCell out Cell.setNull
    | .word n =>
      modifyCell out fun c => { c with payload := n.toUInt64, flags := c.flags.retype .onlyInt }
    | .beyond => modifyCell out (inReals a b true)
  else modifyCell out (inReals a b (leftType.real || rightType.real))
where
  inReals (a b : Cell) (keepReal : Bool) (out : Cell) : Cell :=
    match arithReal op a.realValue b.realValue with
    | none => out.setNull
    | some x =>
      if x.isNaN then out.setNull
      else
        let out := { out with payload := x.bits, flags := out.flags.retype .onlyReal }
        if keepReal then out else out.integerAffinity

end Direct

end QueryMachine
