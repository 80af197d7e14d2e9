import QueryMachine.Function.Builtin

/-!
The built-in aggregates that work in place: what they keep between two rows hangs on the register of
the result.
-/

namespace QueryMachine

inductive Fold
  | count
  | sum
  | total
  | avg
  | extreme (greatest : Bool)
  | join
  deriving Repr, DecidableEq, Inhabited

namespace Fold

def table : List (String × Int × Fold) :=
  [("min", 1, .extreme false), ("max", 1, .extreme true), ("sum", 1, .sum), ("total", 1, .total),
    ("avg", 1, .avg), ("count", 0, .count), ("count", 1, .count), ("group_concat", 1, .join),
    ("group_concat", 2, .join)]

def ofName? (name : String) (arity : Int) : Option Fold :=
  (table.find? fun f => f.1 == name && f.2.1 == arity).map (·.2.2)

/-- How much room the aggregate takes in the register. -/
def room : Fold → Nat
  | .count => 8
  | .sum | .total | .avg => 32
  | .extreme _ | .join => 56

/-- What an aggregate has when it starts. -/
def start : Fold → Accumulator
  | .count => .count 0
  | .sum | .total | .avg => .sum {}
  | .extreme _ | .join => .blank

/-- What the register keeps; there is nothing before the first row. -/
def kept? (c : Cell) : Option Accumulator :=
  match c.flags.agg, c.attachment with
  | true, .accumulator a => some a
  | _, _ => none

/-- Opens the register for an aggregate. -/
def openCell (f : Fold) (name : Nat) (c : Cell) : Cell :=
  if c.flags.agg then c
  else
    { c.clearAndResize name f.room with
      flags := { agg := true }, attachment := .accumulator f.start }

def keep (r : Nat) (a : Accumulator) : BankM Unit :=
  Bank.modifyCell r fun c => { c with attachment := .accumulator a }

/-- Adds a value to a sum; no value adds nothing. -/
def addTo (s : RunningSum) (r : Nat) : BankM RunningSum := do
  let (kind, c) := (← Bank.cell r).numericKind
  Bank.setCell r c
  match kind with
  | .null => return s
  | .integer => return s.addInt c.intValue
  | _ => return s.addReal c.realValue

/-- A value as it is kept from one row to the next. -/
def settled (name : Nat) (c : Cell) : Content := (Cell.copy name c Cell.null).toContent

/-- Adds a row to the smallest or greatest value; answers whether the row is passed over. -/
def stepExtreme (greatest : Bool) (coll : Option Collation) (r : Nat) (a : Accumulator) :
    BankM (Accumulator × Bool) := do
  let c ← Bank.cell r
  match a, c.flags.kind with
  | .best _, .null => return (a, true)
  | .best b, _ =>
    let o := Cell.compare coll { toContent := b } c
    if (if greatest then o == .lt else o == .gt) then return (.best (settled (← Bank.freshName) c), false)
    else return (a, true)
  | _, .null => return (a, false)
  | _, _ => return (.best (settled (← Bank.freshName) c), false)

def separator : List Nat → BankM Bytes
  | s :: _ => return (← Argument.sized? s).getD []
  | [] => return Bytes.ofString ","

def stepJoin (r : Nat) (more : List Nat) (a : Accumulator) : BankM Accumulator := do
  let before ← match a with
    | .joined b => pure (b ++ (← separator more))
    | _ => pure []
  return .joined (before ++ (← Argument.sized? r).getD [])

/-- Adds a row; answers whether the row is passed over. -/
def step (f : Fold) (coll : Option Collation) (args : List Nat) (out : Nat) : BankM Bool := do
  Bank.modifyCell out fun c => { c with size := c.size + 1 }
  match f, args with
  | .join, r :: more =>
    if (← Argument.kind r) = .null then return false
    Bank.modifyCellWith out f.openCell
    keep out (← stepJoin r more ((kept? (← Bank.cell out)).getD .blank))
    return false
  | f, args =>
    Bank.modifyCellWith out f.openCell
    let a := (kept? (← Bank.cell out)).getD .blank
    match f, a, args with
    | .count, .count n, [] =>
      keep out (.count (n + 1))
      return false
    | .count, .count n, r :: _ =>
      keep out (.count (if (← Argument.kind r) = .null then n else n + 1))
      return false
    | .extreme greatest, a, r :: _ =>
      let (a, passed) ← stepExtreme greatest coll r a
      keep out a
      return passed
    | _, .sum s, r :: _ =>
      keep out (.sum (← addTo s r))
      return false
    | _, _, _ => return false

/-- What an aggregate answers in the end. -/
def outcome (f : Fold) (a : Option Accumulator) : Outcome :=
  match f, a with
  | .count, some (.count n) => .int n
  | .count, _ => .int 0
  | .sum, some (.sum s) =>
    if s.count = 0 then .nothing
    else if s.overflow then .failure "integer overflow"
    else if s.approx then .real s.real
    else .int s.int
  | .total, some (.sum s) => .real s.real
  | .total, _ => .real .zero
  | .avg, some (.sum s) => if s.count = 0 then .nothing else .real s.mean
  | .extreme _, some (.best b) => .same { toContent := b }
  | .join, some (.joined b) => .madeText b.untilZero true
  | _, _ => .nothing

end Fold

/-- The names of built-in functions with a number of arguments and whether they are aggregates; those
that cannot be called come with nothing. -/
def Builtin.names : List (String × Int × Option Bool) :=
  table.map (fun f => (f.1, f.2.1, some false)) ++ Fold.table.map (fun f => (f.1, f.2.1, some true)) ++
    reserved.map fun f => (f.1, f.2, none)

/-- How a program refers to a built-in function. -/
def FuncRef.ofBuiltin (name : String) (arity : Int) (isFold : Bool) : FuncRef :=
  { step := if isFold then 2 else 0
    final := if isFold then 2 else 0
    func := if isFold then 0 else 2
    user := 0
    arity
    name }

/-- The built-in function with a name that takes a number of arguments. One that is made for this number
is preferred to one that takes any number, also if it cannot be called. Minus two asks for any function
with the name. -/
def FuncRef.builtin? (name : String) (arity : Int) : Option FuncRef :=
  let named := Builtin.names.filter fun f => f.1.toLower == name.toLower
  let same (n : Int) : Option (Option FuncRef) :=
    (named.find? fun f => f.2.1 == n).map fun f => f.2.2.map (.ofBuiltin f.1 f.2.1)
  if arity = -2 then named.findSome? fun f => f.2.2.map (.ofBuiltin f.1 f.2.1)
  else ((same arity).or (same (-1))).join

/-- The function that a call means: a registered one, or a built-in one. -/
def Registry.refOf? (r : Registry) (name : String) (arity : Int) : Option FuncRef :=
  (r.resolve? name arity).or (FuncRef.builtin? name arity)

end QueryMachine
