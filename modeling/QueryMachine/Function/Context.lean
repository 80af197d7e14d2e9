import QueryMachine.Bank.Register

/-!
Functions that work on registers. A scalar function reads its arguments and writes a result; an
aggregate keeps a context from one row to the next and writes a result from it in the end.
-/

namespace QueryMachine

/-- Adds the value of a register; every value that is not an integer counts as a double. -/
def RunningSum.step (s : RunningSum) (arg : Nat) : BankM RunningSum := do
  if (← Bank.numericKind arg) = .integer then return s.addInt (← Bank.intValue arg)
  else return s.addReal (← Bank.realValue arg).toDouble

inductive Aggregate
  | count
  | sum
  | avg
  | sumLength
  | joinText
  deriving Repr, DecidableEq, Inhabited

inductive Context
  | count (n : Nat)
  | sum (s : RunningSum)
  | avg (s : RunningSum)
  | sumLength (total : Option Int)
  | joinText (parts : List Bytes)
  /-- A context that nothing can be added to. -/
  | plain
  deriving Repr, DecidableEq, Inhabited

namespace Context

def start : Aggregate → Context
  | .count => .count 0
  | .sum => .sum {}
  | .avg => .avg {}
  | .sumLength => .sumLength none
  | .joinText => .joinText []

def single : List Nat → BankM Nat
  | [arg] => pure arg
  | _ => throw .badValue

def step : Context → List Nat → BankM Context
  | .count n, args => do
    match args with
    | [] => return .count (n + 1)
    | arg :: _ => return .count (if (← Bank.valueKind arg) = .null then n else n + 1)
  | .sum s, args => do return .sum (← s.step (← single args))
  | .avg s, args => do return .avg (← s.step (← single args))
  | .sumLength total, args => do
    let lengths ← args.mapM Bank.valueBytes
    return .sumLength (some (total.getD 0 + lengths.foldl (· + ·) 0))
  | .joinText parts, args => do
    let texts ← args.mapM fun arg => do
      let length ← Bank.valueBytes arg
      match ← Bank.valueText arg with
      | some text => return text.take length.toNat
      | none => return Bytes.ofString "NULL"
    return .joinText (parts ++ texts)
  | .plain, _ => throw .absent

def join (parts : List Bytes) : Bytes := (parts.intersperse (Bytes.ofString "|")).flatten

end Context

namespace Aggregate

/-- Writes the result of an aggregate. A context that belongs to another one is refused. -/
def finalize (a : Aggregate) (ctx : Option Context) (out : Nat) : BankM Unit :=
  match a, ctx with
  | .count, none => Bank.setInteger out 0
  | .count, some (.count n) => Bank.setInteger out n
  | .sum, none => pure ()
  | .sum, some (.sum s) =>
    if s.count = 0 then pure ()
    else if s.overflow then throw (.functionFailed "integer overflow")
    else if s.approx then Bank.setDouble out (.real s.real)
    else Bank.setInteger out s.int
  | .avg, none => pure ()
  | .avg, some (.avg s) =>
    if s.count = 0 then pure ()
    else Bank.setDouble out (.real s.mean)
  | .sumLength, none => Bank.setInteger out (-1)
  | .sumLength, some (.sumLength total) => Bank.setInteger out (total.getD (-1))
  | .joinText, none => Bank.setText out []
  | .joinText, some (.joinText parts) => Bank.setText out (Context.join parts)
  | _, _ => throw (.assertion "")

end Aggregate

inductive Scalar
  | addInts
  | mean
  | types
  | nullify
  | fail
  deriving Repr, DecidableEq, Inhabited

namespace Scalar

def kindLetter : Value.Kind → UInt8
  | .integer => 105
  | .float => 102
  | .text => 115
  | .blob => 98
  | .null => 110

/-- Writes the result of the function that is called `name` and takes `arity` arguments. -/
def call (s : Scalar) (name : String) (arity : Int) (args : List Nat) (out : Nat) : BankM Unit :=
  match s with
  | .addInts => do
    let total ← args.foldlM (fun t arg => return t + (← Bank.intValue arg)) 0
    Bank.setInteger out (wrapWord total)
  | .mean => do
    let total ← args.foldlM (fun (t : Number) arg => return t.add (← Bank.realValue arg)) (.real .zero)
    if args.isEmpty then throw .divisionByZero
    Bank.setDouble out (.real (total.toDouble.div (.ofInt args.length)))
  | .types => do
    Bank.setText out (← args.mapM fun arg => return kindLetter (← Bank.valueKind arg))
  | .nullify => Bank.setNull out
  | .fail => throw (.functionFailed s!"{name}/{arity} failed")

end Scalar

end QueryMachine
