import QueryMachine.Machine.Step
import QueryMachine.Machine.Trace

/-!
Runs. A run executes instructions until one of them ends it: with a row, because the program is at its
end, or with an error. Before and after every instruction what is known about the registers is held
against the registers.
-/

namespace QueryMachine.Machine

open Bank

/-- Gives up if something is known about a register that is not so. -/
def checkRegisters : BankM Unit := do
  for r in List.range (← get).reach do checkFacts r

/-- Makes the output register ready and forgets what the instruction does not say itself. -/
def prepare (i : Instruction) : BankM Unit := do
  if i.op.overwritesSecond then
    let r ← register i.p2
    releaseExtern r
    setFlags r .onlyInt
  checkRegisters
  if !i.op.keepsKnowledge then forgetAll
  checkRegisters

/-- Forgets what the instruction does not say itself. -/
def conclude (i : Instruction) : BankM Unit := do
  if !i.op.keepsKnowledge then forgetAll
  checkRegisters

/-- The instruction at an address; a negative one counts from the end. -/
def fetch (pc : Int) : MachineM Instruction := do
  let program := (← get).program
  return program.getD (← expect .outOfRange (wrapIndex? program.size pc)) default

/-- How a run stands between two instructions: it has ended with a code, or it goes on at an address,
knowing what a sheet says. -/
inductive Course
  | ended (code : Nat)
  | going (pc : Int) (sheet : Option Sheet)
  deriving Repr, DecidableEq, Inhabited

/-- Executes one instruction. -/
def turn (pc : Int) (sheet : Option Sheet) : MachineM Course := do
  reveal sheet
  let i ← fetch pc
  let m ← get
  if m.budget = 0 then throw .tooManySteps
  set { m.enterTrace pc i.op with budget := m.budget - 1 }
  prepare i
  match ← step pc i with
  | .leave code => return .ended code
  | .next =>
    conclude i
    return .going (pc + 1) (← Bank.current?)
  | .jump target =>
    conclude i
    let sheet ← Bank.current?
    if target ≤ pc then hide
    return .going target sheet
  | .fail code =>
    conclude i
    return .ended code

/-- Executes instructions until the run ends, but at most `fuel` of them. -/
def loop : Nat → Course → MachineM Nat
  | _, .ended code => return code
  | 0, .going _ _ => throw .tooManySteps
  | fuel + 1, .going pc sheet => do loop fuel (← turn pc sheet)

/-- Starts a run where the last one stopped. -/
def start : MachineM Course := do
  let pc := max (← get).pc 0
  let sheet ← Bank.current?
  reenter
  modify fun m => { m with hasRow := false, result := -1, status := m.status.freeze }
  return .going pc sheet

/-- Runs the program from where it stopped; answers the code that the run ends with. -/
def run : MachineM Nat := do
  let course ← start
  let code ← loop ((← get).budget + 1) course
  prepareReturn
  return code

end QueryMachine.Machine
