import QueryMachine.Machine.Basic

/-!
Instructions that choose the next instruction. Every one of them has a tracked rule, which goes through
what is known about the registers, and a direct rule, which works on the cells.
-/

namespace QueryMachine

open Bank

namespace Step

/-- Goes on behind an address. -/
def behind (address : Int) : Flow := .jump (address + 1)

def init (i : Instruction) : Flow := .jumpIf (i.p2 != 0) i.p2

def goto (i : Instruction) : Flow := .jump i.p2

end Step

namespace Tracked

def gosub (pc : Int) (i : Instruction) : MachineM Flow := do
  check (0 < i.p1 && i.p1 ≤ (← get).registers)
  let r ← register i.p1
  check !(← isDynamic r)
  setFlags r .onlyInt
  setInt r pc true
  return .jump i.p2

def returnTo (i : Instruction) : BankM Flow := do
  let r ← register i.p1
  check ((← flags r) == .onlyInt)
  let address ← int r
  setFlags r .onlyUndefined
  return Step.behind address

def initCoroutine (i : Instruction) : BankM Flow := do
  let r ← register i.p1
  check !(← isDynamic r)
  setInt r (i.p3 - 1) true
  setFlags r .onlyInt
  return Step.init i

/-- Swaps the address with the one in a register. -/
def yield (pc : Int) (i : Instruction) : BankM Flow := do
  let r ← register i.p1
  check !(← isDynamic r)
  setFlags r .onlyInt
  let address ← int r
  setInt r pc true
  return Step.behind address

/-- Goes where the instruction that called the coroutine says. -/
def endCoroutine (i : Instruction) : MachineM Flow := do
  let r ← register i.p1
  let program := (← get).program
  let k ← expect .outOfRange (wrapIndex? program.size (← int r))
  let caller := program.getD k default
  check (caller.op == .yield)
  setFlags r .onlyUndefined
  return .jump caller.p2

def isNull (i : Instruction) : BankM Flow := do
  return .jumpIf (← flags (← register i.p1)).null i.p2

def notNull (i : Instruction) : BankM Flow := do
  return .jumpIf (!(← flags (← register i.p1)).null) i.p2

def once (i : Instruction) : MachineM Flow := do
  let m ← get
  check (i.p1 < m.once.size)
  if m.once.getD i.p1.toNat false then return .jump i.p2
  else
    set { m with once := m.once.setIfInBounds i.p1.toNat true }
    return .next

/-- Jumps on a true value, or on a false one if `negate`; without a value the instruction says. -/
def condition (negate : Bool) (i : Instruction) : BankM Flow := do
  let r ← register i.p1
  if (← flags r).null then return .jumpIf (i.p3 != 0) i.p2
  else
    let holds := !(← realValue r).isZero
    return .jumpIf (holds != negate) i.p2

def ifPos (i : Instruction) : BankM Flow := do
  return .jumpIf (0 < (← int (← register i.p1))) i.p2

/-- Adds to a counter and jumps when it comes to zero. -/
def ifZero (i : Instruction) : BankM Flow := do
  let r ← register i.p1
  check (← flags r).int
  let constant ← isConstantInt r
  let n := (← int r) + i.p3
  setInt r n constant
  return .jumpIf (n == 0) i.p2

end Tracked

namespace Direct

def gosub (pc : Int) (i : Instruction) : BankM Flow := do
  modifyCell (← slot i.p1) fun c => { c with flags := .onlyInt, payload := intToWord pc }
  return .jump i.p2

def returnTo (i : Instruction) : BankM Flow := do
  let r ← slot i.p1
  let address := (← cell r).int
  modifyCell r fun c => { c with flags := .onlyUndefined }
  return Step.behind address

def initCoroutine (i : Instruction) : BankM Flow := do
  modifyCell (← slot i.p1) fun c => { c with flags := .onlyInt, payload := intToWord (i.p3 - 1) }
  return Step.init i

def yield (pc : Int) (i : Instruction) : BankM Flow := do
  let r ← slot i.p1
  let address := wrapHalf (← cell r).int
  modifyCell r fun c => { c with flags := .onlyInt, payload := intToWord pc }
  return Step.behind address

def endCoroutine (i : Instruction) : MachineM Flow := do
  let r ← slot i.p1
  let address := (← cell r).int
  let caller := (← get).program.getD address.toNat default
  modifyCell r fun c => { c with flags := .onlyUndefined }
  return .jump caller.p2

def isNull (i : Instruction) : BankM Flow := do
  return .jumpIf (← cell (← slot i.p1)).flags.null i.p2

def notNull (i : Instruction) : BankM Flow := do
  return .jumpIf (!(← cell (← slot i.p1)).flags.null) i.p2

def once (i : Instruction) : MachineM Flow := do
  let m ← get
  if m.once.getD i.p1.toNat false then return .jump i.p2
  else
    set { m with once := m.once.setIfInBounds i.p1.toNat true }
    return .next

def condition (negate : Bool) (i : Instruction) : BankM Flow := do
  let c ← cell (← slot i.p1)
  if c.flags.null then return .jumpIf (i.p3 != 0) i.p2
  else
    let holds := !c.realValue.isZero
    return .jumpIf (holds != negate) i.p2

def ifPos (i : Instruction) : BankM Flow := do
  return .jumpIf (0 < (← cell (← slot i.p1)).int) i.p2

def ifZero (i : Instruction) : BankM Flow := do
  let r ← slot i.p1
  let n := wrapWord ((← cell r).int + i.p3)
  modifyCell r fun c => { c with payload := intToWord n }
  return .jumpIf (n == 0) i.p2

end Direct

end QueryMachine
