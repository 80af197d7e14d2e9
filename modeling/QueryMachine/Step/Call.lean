import QueryMachine.Function.Fold
import QueryMachine.Step.Column
import QueryMachine.Step.Record

/-!
Calls of functions and steps of aggregates. Registered functions, and the aggregates that count and
sum, go through what is known about the registers; the others work on the cells.
-/

namespace QueryMachine

open Bank

def Machine.callee (i : Instruction) : MachineM Func := do
  let ref ← expect .absent i.p4.func?
  match (← get).registry.find ref with
  | .ok (f, registry) =>
    modify fun m => { m with registry }
    return f
  | .error e => throw e

def Machine.collationBefore (pc : Int) : MachineM (Option Collation) := do
  let program := (← get).program
  return if 1 ≤ pc then (program.getD (pc - 1).toNat default).p4.collation? else none

/-- What a function that is called at `pc` may know. -/
def Machine.surroundings (pc : Int) : MachineM Surroundings := do
  let collation ← Machine.collationBefore pc
  let m ← get
  return {
    collation
    now := m.clock
    lastRowid := m.lastRowid
    changes := m.changes
    totalChanges := m.totalChanges
    draws := fun n => m.draws (m.drawn + n) }

namespace Direct

/-- Ends the run with what a function says about its failure. -/
def failWith (code : Nat) (message : Bytes) : MachineM Flow := do
  modify fun m => { m with message := some message.untilZero }
  return .fail code

def function (pc : Int) (i : Instruction) : MachineM Flow := do
  let out ← slot i.p3
  let args ← (Instruction.span i.p2 i.p5).mapM fun r => Machine.onBank (slot r)
  for r in args do
    if (← cell r).flags.ephem then modifyCellWith r Cell.makeWriteable
  modifyCell out fun c => { c with flags := c.flags.retype .onlyNull }
  let ref := i.p4.func?.getD default
  match Builtin.ofName? ref.name ref.arity with
  | none => return .next
  | some f =>
    let outcome ← f.call (← Machine.surroundings pc) args
    modify fun m => { m with drawn := m.drawn + f.used outcome }
    modifyCellWith out outcome.write
    match outcome with
    | .error code message => failWith code message
    | _ => return .next

/-- Adds a row to an aggregate. One that passes over the row says so in a register that the
instruction before this one names. -/
def aggStep (pc : Int) (i : Instruction) : MachineM Flow := do
  let args ← (Instruction.span i.p2 i.p5).mapM fun r => Machine.onBank (slot r)
  let out ← slot i.p3
  let ref := i.p4.func?.getD default
  match Fold.ofName? ref.name ref.arity with
  | none => return .next
  | some f =>
    let passed ← f.step (← Machine.collationBefore pc) args out
    if passed then
      let before := (← get).program.getD (pc - 1).toNat default
      if before.p1 != 0 then modifyCell (← slot before.p1) (Cell.setInt 1)
    return .next

/-- Replaces what an aggregate has gathered by its result. -/
def aggFinal (i : Instruction) : MachineM Flow := do
  let out ← slot i.p1
  let ref := i.p4.func?.getD default
  match Fold.ofName? ref.name ref.arity with
  | none => return .next
  | some f =>
    let outcome := f.outcome (Fold.kept? (← cell out))
    let name ← freshName
    setCell out (outcome.write name { flags := .onlyNull })
    match outcome with
    | .error code message => failWith code message
    | _ => return .next

end Direct

namespace Tracked

def function (pc : Int) (i : Instruction) : MachineM Flow := do
  let f ← Machine.callee i
  if f.isScalar then
    let out ← register i.p3
    let args ← (Instruction.span i.p2 i.p5).mapM fun r => Machine.onBank (register r)
    f.call args out
    return .next
  else
    for r in Instruction.span i.p2 i.p5 do forgetAt r
    noteOutput i (Direct.function pc i)

def aggStep (pc : Int) (i : Instruction) : MachineM Flow := do
  let f ← Machine.callee i
  if f.isAggregate then
    let args ← (Instruction.span i.p2 i.p5).mapM fun r => Machine.onBank (register r)
    let out ← register i.p3
    let context ← f.openContext (← Machine.context? out)
    Machine.setContext out (some context)
    Machine.setContext out (some (← context.step args))
    return .next
  else
    forgetAll
    Direct.aggStep pc i

def aggFinal (i : Instruction) : MachineM Flow := do
  let f ← Machine.callee i
  if f.isAggregate then
    let out ← register i.p1
    f.finalize (← Machine.context? out) out
    Machine.setContext out none
    return .next
  else
    forgetAll
    Direct.aggFinal i

end Tracked

end QueryMachine
