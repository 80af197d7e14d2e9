import QueryMachine.Machine.Basic

/-!
Comparisons of registers: jumps and truth values from two registers, and the order of two vectors for a
jump with three targets.
-/

namespace QueryMachine

open Bank

inductive Relation
  | eq
  | ne
  | lt
  | le
  | gt
  | ge
  deriving Repr, DecidableEq, Inhabited

namespace Relation

def ofOpcode? : Opcode → Option Relation
  | .eq => some .eq
  | .ne => some .ne
  | .lt => some .lt
  | .le => some .le
  | .gt => some .gt
  | .ge => some .ge
  | _ => none

def holds : Relation → Ordering → Bool
  | .eq, o => o == .eq
  | .ne, o => o != .eq
  | .lt, o => o == .lt
  | .le, o => o != .gt
  | .gt, o => o == .gt
  | .ge, o => o != .lt

/-- Whether two numbers are related; a NaN is related to nothing and different from everything. -/
def holdsNumber (r : Relation) (a b : Number) : Bool :=
  match a.cmp? b with
  | some o => r.holds o
  | none => r == .ne

end Relation

structure CompareOptions where
  affinity : Nat
  jumpIfNull : Bool
  store : Bool
  nullEq : Bool
  deriving Repr, DecidableEq, Inhabited

namespace CompareOptions

def ofBits (p5 : Nat) : CompareOptions :=
  ⟨p5 &&& 71, p5.testBit 4, p5.testBit 5, p5.testBit 7⟩

def isNumeric (o : CompareOptions) : Bool := 67 ≤ o.affinity

def isText (o : CompareOptions) : Bool := o.affinity = 66

end CompareOptions

/-- A text that is not yet read as a number. -/
def Flags.onlyText (f : Flags) : Bool := f.str && !f.int && !f.real

/-- A number that is not yet written as text. -/
def Flags.onlyNumber (f : Flags) : Bool := !f.str && f.numeric

namespace Tracked

/-- The number in a register with the marks `f`, as a double. -/
def asReal (r : Nat) (f : Flags) : BankM Number := do
  if f.int then return .real (.ofInt (← int r))
  else
    check f.real
    real r

/-- Brings one operand to the affinity; answers its marks and whether they may have changed. -/
def coerce (o : CompareOptions) (r : Nat) (f : Flags) : BankM (Flags × Bool) := do
  if o.isNumeric && f.onlyText then
    applyNumericAffinity r false
    return (← flags r, true)
  else if o.isText && f.onlyNumber then
    stringify r true
    return (← flags r, true)
  else return (f, false)

/-- Writes counted zeros out; answers the marks to go back to and whether anything changed. -/
def widen (r : Nat) (f before : Flags) : BankM (Flags × Bool) := do
  if f.zero then
    direct r Cell.expandBlob
    discard (flags r)
    return ({ before with zero := false }, true)
  else return (before, false)

/-- Stores a truth value or jumps on it. -/
def decide (o : CompareOptions) (i : Instruction) (holds : Bool) : BankM Flow := do
  if o.store then
    let out ← register i.p2
    retype out .onlyInt
    setInt out holds.toNat false
    return .next
  else return .jumpIf holds i.p2

def comparison (rel : Relation) (i : Instruction) : BankM Flow := do
  let o := CompareOptions.ofBits i.p5
  let r1 ← register i.p1
  let f1 ← flags r1
  let r3 ← register i.p3
  let f3 ← flags r3
  if f1.null || f3.null then
    if o.nullEq then
      check (rel == .eq || rel == .ne)
      check !f1.cleared
      check !o.jumpIfNull
      decide o i !(f1.null && f3.null && !f3.cleared)
    else if o.store then
      retype (← register i.p2) .onlyNull
      return .next
    else return .jumpIf o.jumpIfNull i.p2
  else if o.isNumeric && (f1.numeric || f3.numeric) then
    if f1.int && f3.int then
      decide o i (rel.holds (compare (← int r3) (← int r1)))
    else
      let n1 ← asReal r1 f1
      let n3 ← asReal r3 f3
      decide o i (rel.holdsNumber n3 n1)
  else
    let (g1, changed1) ← coerce o r1 f1
    let (g3, changed3) ← coerce o r3 f3
    check i.p4.mayCollate
    let (back1, wide1) ← widen r1 g1 f1
    let (back3, wide3) ← widen r3 g3 f3
    let flow ← decide o i (rel.holds (← Bank.compare r3 r1 i.p4.collation?))
    if changed1 || changed3 || wide1 || wide3 then
      setFlags r1 back1
      setFlags r3 back3
    return flow

def compareVectors (k : KeyInfo) (p1 p2 : Int) : Nat → Nat → BankM Ordering
  | 0, _ => return .eq
  | n + 1, c => do
    check (c < k.columns.length)
    let r1 ← register (p1 + c)
    let r2 ← register (p2 + c)
    match ← Bank.compare r1 r2 (some (k.collation c)) with
    | .eq => compareVectors k p1 p2 n (c + 1)
    | o => return if k.descending c then o.swap else o

def compare (i : Instruction) : MachineM Unit := do
  if i.option 0 then throw (.assertion "Not implemented, need support for OP_Permutation.")
  check (0 < i.p3)
  let k ← expect (.assertion "") i.p4.key?
  let o ← compareVectors k i.p1 i.p2 i.p3.toNat 0
  modify fun m => { m with order := o }

/-- Three targets for the three orders. -/
def target (i : Instruction) : Ordering → Int
  | .lt => i.p1
  | .eq => i.p2
  | .gt => i.p3

def jump (i : Instruction) : MachineM Flow :=
  modifyGet fun m => (.jump (target i m.order), { m with order := .eq })

end Tracked

namespace Direct

def coerce (o : CompareOptions) (name : Nat) (c : Cell) : Cell :=
  if o.isNumeric && c.flags.onlyText then c.applyNumericAffinity false
  else if o.isText && c.flags.onlyNumber then c.stringify name true
  else c

def decide (o : CompareOptions) (i : Instruction) (holds : Bool) : BankM Flow := do
  if o.store then
    modifyCell (← slot i.p2) fun c =>
      { c with flags := c.flags.retype .onlyInt, payload := intToWord holds.toNat }
    return .next
  else return .jumpIf holds i.p2

/-- Writes counted zeros out; answers the marks to go back to. -/
def widen (r : Nat) (before : Flags) : BankM Flags := do
  if (← cell r).flags.zero then
    modifyCellWith r Cell.expandBlob
    return { before with zero := false }
  else return before

def comparison (rel : Relation) (i : Instruction) : BankM Flow := do
  let o := CompareOptions.ofBits i.p5
  let r1 ← slot i.p1
  let r3 ← slot i.p3
  let f1 := (← cell r1).flags
  let f3 := (← cell r3).flags
  if f1.null || f3.null then
    if o.nullEq then
      let order : Ordering := if f1.null && f3.null && !f3.cleared then .eq else .gt
      let flow ← decide o i (rel.holds order)
      modifyCell r1 fun c => { c with flags := f1 }
      modifyCell r3 fun c => { c with flags := f3 }
      return flow
    else if o.store then
      modifyCell (← slot i.p2) fun c => { c with flags := c.flags.retype .onlyNull }
      return .next
    else return .jumpIf o.jumpIfNull i.p2
  else
    modifyCellWith r1 (coerce o)
    modifyCellWith r3 (coerce o)
    let back1 ← widen r1 f1
    let back3 ← widen r3 f3
    let flow ← decide o i (rel.holds (Cell.compare i.p4.collation? (← cell r3) (← cell r1)))
    modifyCell r1 fun c => { c with flags := back1 }
    modifyCell r3 fun c => { c with flags := back3 }
    return flow

def compareVectors (k : KeyInfo) (p1 p2 : Int) : Nat → Nat → BankM Ordering
  | 0, _ => return .eq
  | n + 1, c => do
    let a ← cell (← slot (p1 + c))
    let b ← cell (← slot (p2 + c))
    match Cell.compare (some (k.collation c)) a b with
    | .eq => compareVectors k p1 p2 n (c + 1)
    | o => return if k.descending c then o.swap else o

/-- A vector without columns leaves the last order as it is. -/
def compare (i : Instruction) : MachineM Unit := do
  match i.p4.key? with
  | some k =>
    if 0 < i.p3 then
      let o ← compareVectors k i.p1 i.p2 i.p3.toNat 0
      modify fun m => { m with directOrder := o }
  | none => pure ()

def jump (i : Instruction) : MachineM Flow :=
  return .jump (Tracked.target i (← get).directOrder)

end Direct

end QueryMachine
