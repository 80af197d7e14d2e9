import QueryMachine.Step.Seek

/-!
Opening, moving and closing cursors, and the numbers of their rows.
-/

namespace QueryMachine

open Bank

namespace Direct

/-- Opens a cursor on a tree of the database. A cursor that writes lowers the format of records to the
one of the database. -/
def openTable (i : Instruction) : MachineM Flow := do
  if (← get).expired then return .fail Machine.codeAbortRollback
  if i.op == .openWrite then
    modify fun m => { m with format := min m.format m.database.format }
  if i.option 1 then
    modifyCell (← slot i.p2) Cell.integerify
    let root := wrapHalf (← cell (← slot i.p2)).int
    if root < 2 then Machine.abort Machine.codeCorrupt else opened root
  else opened i.p2
where
  opened (root : Int) : MachineM Flow := do
    Machine.setCursor i.p1 (some
      { source := .main root
        info := i.p4.key?
        isTable := i.p4.key?.isNone
        isOrdered := true
        bulk := i.option 0
        nullRow := true })
    return .next

/-- Opens a cursor on an empty tree of its own. The root of a table is the first page there, that of an
index the second one. -/
def openEphemeral (i : Instruction) : MachineM Unit :=
  let root := if i.p4.key?.isNone then 1 else 2
  Machine.setCursor i.p1 (some
    { source := .own (.empty i.p4.key?.isNone root) { size := root }
      info := i.p4.key?
      isTable := i.p4.key?.isNone
      isOrdered := i.p5 != 8
      nullRow := true })

/-- Opens a cursor on the record in a register. -/
def openPseudo (i : Instruction) : MachineM Unit :=
  Machine.setCursor i.p1 (some { source := .register i.p2, isTable := true, nullRow := true })

def sorterOpen (i : Instruction) : MachineM Unit :=
  let info := i.p4.key?.getD default
  Machine.setCursor i.p1 (some { source := .sorter (Sorter.ofKey info i.p3), info })

def close (i : Instruction) : MachineM Unit := Machine.setCursor i.p1 none

def rewind (i : Instruction) : MachineM Flow := do
  let c ← Machine.cursor i.p1
  match c.source with
  | .sorter s =>
    let s := s.sort
    Machine.setCursor i.p1 (some { c with source := .sorter s, nullRow := s.rows.isEmpty })
    return .jumpIf s.rows.isEmpty i.p2
  | _ =>
    let c := { c.stale with deferred := none }
    match (← get).treeOf? c with
    | none =>
      Machine.moveCursor i.p1 { c with nullRow := true } {}
      return .fail Machine.codeCorrupt
    | some t =>
      let isEmpty := t.entries.isEmpty
      Machine.moveCursor i.p1 { c with nullRow := isEmpty } (Position.first t)
      return .jumpIf isEmpty i.p2

def next (i : Instruction) : MachineM Flow := do
  let found ← Step.moveOn i.p1 true
  Machine.modifyCursor i.p1 fun c => { c.stale with nullRow := found == some false }
  match found with
  | none => return .fail Machine.codeCorrupt
  | some found => return .jumpIf found i.p2

def nextIfOpen (i : Instruction) : MachineM Flow := do
  if (← Machine.cursor? i.p1).isNone then return .next else next i

def nullRow (i : Instruction) : MachineM Unit :=
  Machine.modifyCursor i.p1 fun c =>
    { c.stale with nullRow := true, position := { c.position with place := .nowhere } }

/-- The number of the row at a cursor; the register has no value without a row. -/
def rowid (i : Instruction) : MachineM Flow := do
  let out ← slot i.p2
  modifyCell out fun c => { c with flags := .onlyInt }
  let c ← Machine.cursor i.p1
  if c.nullRow then
    modifyCell out fun c => { c with flags := .onlyNull }
    return .next
  match c.deferred with
  | some key =>
    modifyCell out fun c => { c with payload := intToWord key }
    return .next
  | none =>
    if !(← Machine.restoreCursor i.p1) then Machine.abort Machine.codeCorrupt
    else
      let c ← Machine.cursor i.p1
      if c.nullRow then
        modifyCell out fun c => { c with flags := .onlyNull }
        return .next
      else
        let (key, p) := c.position.note (← Machine.treeOf c)
        Machine.moveCursor i.p1 c p
        modifyCell out fun c => { c with payload := intToWord key }
        return .next

def sequence (i : Instruction) : MachineM Unit := do
  let c ← Machine.cursor i.p1
  modifyCell (← slot i.p2) fun d => { d with flags := .onlyInt, payload := intToWord c.sequence }
  Machine.setCursor i.p1 (some { c with sequence := c.sequence + 1 })

end Direct

namespace Tracked

/-- The tracked rule for opening a cursor looks for parts that a machine does not have. -/
def openTable (i : Instruction) : MachineM Flow := do
  check (i.p5 < 4)
  check (i.op == .openWrite || i.p5 == 0)
  throw .absent

def counters : Nat := 5

def next (i : Instruction) : MachineM Flow := do
  check (i.p5 < counters)
  let c ← treeCursor i.p1
  check c.deferred.isNone
  Direct.next i

def nextIfOpen (i : Instruction) : MachineM Flow := do
  if (← Machine.cursor? i.p1).isNone then return .next else next i

/-- The number of times that the cursor was asked for this. -/
def sequence (i : Instruction) : MachineM Unit := do
  let out ← register i.p2
  check (← flags out).int
  let c ← Machine.cursor i.p1
  Machine.setCursor i.p1 (some { c with sequence := c.sequence + 1 })
  setInt out c.sequence false

end Tracked

end QueryMachine
