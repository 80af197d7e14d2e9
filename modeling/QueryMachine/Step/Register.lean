import QueryMachine.Machine.Basic

/-!
Instructions that write values into registers, move them between registers and change their kind.
-/

namespace QueryMachine

open Bank

namespace Tracked

def integer (i : Instruction) : BankM Unit := do setInt (← register i.p2) i.p1 true

/-- Registers without a value; those that are marked as cleared differ from each other. -/
def null (i : Instruction) : BankM Unit := do
  let mark := if i.p1 = 0 then .onlyNull else .onlyCleared
  setFlags (← register i.p2) mark
  for k in List.range (i.p3 - i.p2).toNat do
    let r ← register (i.p2 + 1 + k)
    setNull r
    setFlags r mark

def real (i : Instruction) : BankM Unit := do
  let r ← register i.p2
  setFlags r .onlyReal
  match i.p4 with
  | .real x =>
    check !x.isNaN
    setReal r (.real x) true
  | _ => throw .badValue

def sCopy (i : Instruction) : BankM Unit := do
  let source ← register i.p1
  let target ← register i.p2
  check (target != source)
  shallowCopy target source (some .ephem)

/-- Takes the content of a register with a string of its own. -/
def copyRegister (source target : Nat) : BankM Unit := do
  shallowCopy target source (some .ephem)
  if (← flags target).ephem then makeWriteable target

def copy (i : Instruction) : BankM Unit := do
  for k in List.range (i.p3 + 1).toNat do
    let source ← register (i.p1 + k)
    let target ← register (i.p2 + k)
    copyRegister source target

/-- Moves `n` registers. The registers behind the last ones are looked up, too. -/
def moveFrom : Nat → Int → Int → Nat → Nat → BankM Unit
  | 0, _, _, _, _ => pure ()
  | n + 1, p1, p2, source, target => do
    Bank.moveFrom target source
    let source ← register (p1 + 1)
    let target ← register (p2 + 1)
    moveFrom n (p1 + 1) (p2 + 1) source target

def move (i : Instruction) : BankM Unit := do
  check (0 < i.p3 && 0 < i.p1 && 0 < i.p2)
  check (i.p1 + i.p3 ≤ i.p2 || i.p2 + i.p3 ≤ i.p1)
  let source ← register i.p1
  let target ← register i.p2
  moveFrom i.p3.toNat i.p1 i.p2 source target

def parameter (i : Instruction) : BankM Unit := do
  let source ← Bank.parameter (i.p1 - 1)
  shallowCopy (← register i.p2) source (some .static)

/-- Clears the register that a later minimum or maximum may set. -/
def collSeq (i : Instruction) : BankM Unit := do
  check i.p4.collation?.isSome
  if i.p1 != 0 then setInteger (← register i.p1) 0 true

def cast (i : Instruction) : BankM Unit := do
  check (65 ≤ i.p2 && i.p2 ≤ 69)
  let r ← register i.p1
  expandBlob r
  Bank.cast r i.p2

def affinity (i : Instruction) : BankM Unit := do
  let letters ← expect (.wrongType "") i.p4.text?
  check (letters.length == i.p2)
  for (letter, k) in letters.zipIdx do
    applyAffinity (← register (i.p1 + k)) letter.toNat

def realAffinity (i : Instruction) : BankM Unit := do
  let r ← register i.p1
  if (← flags r).int then
    setReal r (.real (.ofInt (← int r))) false
    retype r .onlyReal

end Tracked

namespace Direct

def real (i : Instruction) : BankM Unit := do
  match i.p4 with
  | .real x => modifyCell (← slot i.p2) fun c => { c with flags := .onlyReal, payload := x.bits }
  | _ => pure ()

/-- Borrows the content of a register. The target is given back first, even if it is the source. -/
def borrow (source target : Nat) : BankM Unit := do
  modifyCell target Cell.released
  let src ← cell source
  modifyCell target (Cell.shallowCopy .ephem src)

def sCopy (i : Instruction) : BankM Unit := do
  let source ← slot i.p1
  borrow source (← slot i.p2)

def copyRegister (source target : Nat) : BankM Unit := do
  borrow source target
  if (← cell target).flags.ephem then modifyCellWith target Cell.makeWriteable

def copy (i : Instruction) : BankM Unit := do
  for k in List.range (i.p3 + 1).toNat do
    let source ← slot (i.p1 + k)
    let target ← slot (i.p2 + k)
    copyRegister source target

def move (i : Instruction) : BankM Unit := do
  for k in List.range i.p3.toNat do
    let source ← slot (i.p1 + k)
    let c ← cell source
    setCell (← slot (i.p2 + k)) c.moveFrom
    setCell source c.movedAway

def parameter (i : Instruction) : BankM Unit := do
  let source ← cell ((← get).reach + (i.p1 - 1).toNat)
  modifyCell (← slot i.p2) (Cell.shallowCopy .static source)

def collSeq (i : Instruction) : BankM Unit := do
  if i.p1 != 0 then modifyCell (← slot i.p1) (Cell.setInt 0)

/-- Every code that does not name another affinity means text. -/
def cast (i : Instruction) : BankM Unit := do
  let aff := (Affinity.ofCode? (i.p2 % 256)).getD .text
  modifyCellWith (← slot i.p1) fun name c => (c.expandBlob name).cast name aff

/-- The affinity that a letter asks for; every letter behind the numeric ones asks for a number. -/
def letterAffinity (letter : UInt8) : Affinity :=
  if 67 ≤ letter && letter < 128 then .numeric else if letter = 66 then .text else .none

def affinity (i : Instruction) : BankM Unit := do
  for (letter, k) in (i.p4.text?.getD []).zipIdx do
    modifyCellWith (← slot (i.p1 + k)) fun name => Cell.applyAffinity name (letterAffinity letter)

def realAffinity (i : Instruction) : BankM Unit := do
  modifyCell (← slot i.p1) fun c => if c.flags.int then c.realify else c

/-- Makes a register an integer, or jumps; without a target the run is given up. -/
def mustBeInt (i : Instruction) : MachineM Flow := do
  let r ← slot i.p1
  if !(← cell r).flags.int then
    modifyCellWith r fun name => Cell.applyAffinity name .numeric
  if (← cell r).flags.int then
    modifyCell r fun c => { c with flags := c.flags.retype .onlyInt }
    return .next
  else if i.p2 = 0 then Machine.abort Machine.codeMismatch
  else return .jump i.p2

end Direct

namespace Tracked

def mustBeInt (i : Instruction) : MachineM Flow := do
  let r ← register i.p1
  if (← flags r).int then
    retype r .onlyInt
    return .next
  else
    invalidate r
    Direct.mustBeInt i

end Tracked

end QueryMachine
