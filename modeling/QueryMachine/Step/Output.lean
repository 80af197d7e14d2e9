import QueryMachine.Machine.Basic

/-!
Instructions that end a run: with a row of results, or for good.
-/

namespace QueryMachine

open Bank

namespace Step

/-- Notes that there is a row and where the program is to go on. -/
def suspend (pc : Int) : MachineM Flow := do
  modify fun m => { m with pc := pc + 1 }
  return .leave Machine.codeRow

/-- Rows that were read before a result row must be read again. -/
def renewStamp : MachineM Unit := modify fun m => { m with stamp := (m.stamp + 2) ||| 1 }

def constraintName : Nat → Option String
  | 1 => some "NOT NULL"
  | 2 => some "UNIQUE"
  | 3 => some "CHECK"
  | 4 => some "FOREIGN KEY"
  | _ => none

/-- What an error that the program raises says. -/
def haltMessage (i : Instruction) : Bytes :=
  match constraintName i.p5, i.p4.text? with
  | some name, some text => Bytes.ofString (name ++ " constraint failed: ") ++ text
  | none, some text => text
  | some name, none => Bytes.ofString (name ++ " constraint failed")
  | none, none => Bytes.ofString " constraint failed"

/-- Whether an error takes back what the program wrote: errors of the storage do, and all others
unless the program says that the changes stay. -/
def undoes (code action : Int) : Bool :=
  let kind := code % 256
  code != 0 && (kind = 7 || kind = 9 || kind = 10 || kind = 13 || !(action = 2 || action = 3))

def halt (pc : Int) (i : Instruction) : MachineM Flow := do
  modify fun m =>
    { m with pc, message := if i.p1 = 0 then m.message else some (haltMessage i) }
  Machine.halt (undoes i.p1 i.p2)
  return .leave
    (if i.p1 = 0 then Machine.codeDone
    else if i.p1 = Machine.codeBusy then Machine.codeBusy
    else Machine.codeError)

end Step

namespace Tracked

def resultRow (pc : Int) (i : Instruction) : MachineM Flow := do
  check ((← get).width == i.p2)
  Step.renewStamp
  modify fun m => { m with result := i.p1 }
  discard (register i.p1)
  modify fun m => { m with hasRow := true }
  for k in List.range i.p2.toNat do
    let r ← register (i.p1 + k)
    check (← isValid r)
    if (← flags r).ephem then makeWriteable r
    nulTerminate r
  Step.suspend pc

end Tracked

namespace Direct

def resultRow (pc : Int) (i : Instruction) : MachineM Flow := do
  Step.renewStamp
  modify fun m => { m with hasRow := true }
  for k in List.range i.p2.toNat do
    let r ← slot (i.p1 + k)
    if (← cell r).flags.ephem then modifyCellWith r Cell.makeWriteable
    modifyCellWith r Cell.nulTerminate
  Step.suspend pc

end Direct

end QueryMachine
