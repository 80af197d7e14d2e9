import QueryMachine.Machine.Trees

/-!
Rows from sorters, and sets of row numbers.
-/

namespace QueryMachine.Direct

open Bank

/-- Puts the current record of a sorter into a register; the cursor on that register has to read it
again. -/
def sorterData (i : Instruction) : MachineM Unit := do
  let c ← Machine.cursor i.p1
  match c.source with
  | .sorter s =>
    modifyCellWith (← slot i.p2) fun name d =>
      let d := (d.clearAndResize name s.current.length).fill s.current
      { d with flags := d.flags.retype .onlyBlob, encoding := d.encoding }
    Machine.modifyCursor i.p3 Cursor.stale
  | _ => pure ()

def sorterNext (i : Instruction) : MachineM Flow := do
  let c ← Machine.cursor i.p1
  match c.source with
  | .sorter s =>
    let (found, s) := s.next
    Machine.setCursor i.p1 (some { c.stale with source := .sorter s, nullRow := !found })
    return .jumpIf found i.p2
  | _ => return .next

/-- Makes a register hold a set of row numbers. -/
def openRowSet (r : Nat) : BankM RowSet := do
  let c ← cell r
  match c.flags.rowSet, c.attachment with
  | true, .rowSet s => return s
  | _, _ =>
    modifyCellWith r fun name => Cell.setRowSet name {}
    return {}

def setRowSet (r : Nat) (s : RowSet) : BankM Unit :=
  modifyCell r fun c => { c with attachment := .rowSet s }

def rowSetAdd (i : Instruction) : BankM Unit := do
  let r ← slot i.p1
  let s ← openRowSet r
  setRowSet r (s.insert (← cell (← slot i.p2)).int)

/-- Takes the smallest number out of a set; jumps if there is none. -/
def rowSetRead (i : Instruction) : BankM Flow := do
  let r ← slot i.p1
  let c ← cell r
  let next : Option Int × RowSet := match c.flags.rowSet, c.attachment with
    | true, .rowSet s => s.next
    | _, _ => (none, {})
  match next with
  | (some n, s) =>
    setRowSet r s
    modifyCell (← slot i.p3) (Cell.setInt n)
    return .next
  | (none, _) =>
    modifyCell r Cell.setNull
    return .jump i.p2

/-- Jumps if a number was added before this batch; else adds it, unless this is the last batch. -/
def rowSetTest (i : Instruction) : BankM Flow := do
  let r ← slot i.p1
  let n := (← cell (← slot i.p3)).int
  let s ← openRowSet r
  let batch := i.p4.toInt
  let (found, s) := if batch = 0 then (false, s) else s.test batch n
  setRowSet r (if !found && 0 ≤ batch then s.insert n else s)
  return .jumpIf found i.p2

end QueryMachine.Direct
