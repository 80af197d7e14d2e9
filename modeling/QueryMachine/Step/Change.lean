import QueryMachine.Step.Cursor

/-!
Changes of trees: new rows and entries, rows that are removed, and whole trees that are made or
emptied.
-/

namespace QueryMachine

open Bank

def maxRowid : Int := maxWord

namespace Direct

/-- Where an entry goes: behind the one that was read last if its key is the next one, else where the
last search ended if that is known, else where a search ends. -/
def insertOrder (c : Cursor) (t : Tree) (e : Entry) (known : Ordering) (fromLast : Bool) :
    Option Ordering × Position :=
  if c.info.isNone && 0 < e.key && c.position.noted == some (e.key - 1) then (some .lt, c.position)
  else if known != .eq then (some known, c.position)
  else
    match c.info with
    | none => c.position.seekKey t e.key fromLast
    | some info =>
      let k := SearchKey.ofRecord info e.record
      if k.cells.isEmpty then (none, c.position)
      else Position.seek t (Tree.orderOfRecord k) fromLast

def insertEntry (i : Int) (e : Entry) (known : Ordering) (fromLast : Bool) : MachineM Flow := do
  let c ← Machine.cursor i
  Machine.announceChange i c
  match (← get).treeOf? c with
  | none =>
    Machine.moveCursor i c {}
    return .fail Machine.codeCorrupt
  | some t =>
    match insertOrder c t e known fromLast with
    | (none, p) =>
      Machine.moveCursor i c p
      return .fail Machine.codeCorrupt
    | (some o, p) =>
      Machine.changeTree i c (p.insert c.bulk t e o)
      return .next

/-- How the last search ended, if the instruction says that it is still good. -/
def knownOrder (i : Instruction) : MachineM Ordering := do
  let c ← Machine.cursor i.p1
  return if i.option 4 then c.seekResult else .eq

def idxInsert (i : Instruction) : MachineM Flow := do
  let r ← slot i.p2
  modifyCellWith r Cell.expandBlob
  let c ← Machine.cursor i.p1
  match c.source with
  | .sorter s =>
    Machine.setCursor i.p1 (some { c with source := .sorter (s.insert (← cell r).bytes) })
    return .next
  | _ =>
    let e : Entry := { record := (← cell r).bytes }
    let flow ← insertEntry i.p1 e (← knownOrder i) (i.p3 != 0)
    Machine.modifyCursor i.p1 Cursor.stale
    return flow

def insert (key : Int) (i : Instruction) : MachineM Flow := do
  let r ← slot i.p2
  if i.option 1 then modify fun m => { m with lastRowid := key }
  if (← cell r).flags.null then modifyCell r fun c => { c with data := none, size := 0 }
  let c ← cell r
  let zeros := if c.flags.zero then c.zeros.toNat else 0
  let e : Entry := { key, record := c.bytes ++ List.replicate zeros 0 }
  let flow ← insertEntry i.p1 e (← knownOrder i) (i.option 3)
  Machine.modifyCursor i.p1 fun c => { c.stale with deferred := none }
  return flow

def insertKey (i : Instruction) : MachineM Flow := do
  insert (← cell (← slot i.p3)).int i

def insertInt (i : Instruction) : MachineM Flow := insert i.p3 i

def delete (i : Instruction) : MachineM Flow := do
  let c ← Machine.cursor i.p1
  let t ← Machine.treeOf c
  if c.position.isHere && c.position.index < t.entries.length then
    Machine.announceChange i.p1 c
    Machine.changeTree i.p1 c (c.position.erase c.bulk t)
    Machine.modifyCursor i.p1 Cursor.stale
    return .next
  else
    Machine.modifyCursor i.p1 Cursor.stale
    return .fail Machine.codeError

def drawRowid : MachineM Int :=
  modifyGet fun m => (m.draws m.drawn % 4611686018427387904 + 1, { m with drawn := m.drawn + 1 })

/-- Draws row numbers until one is free, at most `fuel` times. -/
def drawFree (i : Int) : Nat → MachineM (Except Nat Int)
  | 0 => return .error Machine.codeFull
  | fuel + 1 => do
    let v ← drawRowid
    match ← Machine.seekRow i (← Machine.cursor i) v with
    | none => return .error Machine.codeCorrupt
    | some .eq => drawFree i fuel
    | some _ => return .ok v

/-- The number behind the last row; there is none if that row has the largest one. -/
def nextRowid (i : Int) : MachineM (Except Nat Int) := do
  let c ← Machine.cursor i
  match (← get).treeOf? c with
  | none => return .error Machine.codeCorrupt
  | some t =>
    let p := c.position.last t
    if p.isHere then
      let (v, p) := p.note t
      Machine.moveCursor i { c with randomRowid := maxRowid ≤ v } p
      return .ok (if maxRowid ≤ v then v else v + 1)
    else
      Machine.moveCursor i c p
      return .ok 1

/-- A number that is not below the one in a register, which it replaces there. -/
def aboveCounter (i : Instruction) (v : Int) : MachineM (Except Nat Int) := do
  if i.p3 = 0 then return .ok v
  else
    let r ← slot i.p3
    modifyCell r Cell.integerify
    let n := (← cell r).int
    if n = maxRowid || (← Machine.cursor i.p1).randomRowid then return .error Machine.codeFull
    else
      let v := max v (n + 1)
      modifyCell r fun c => { c with payload := intToWord v }
      return .ok v

def freeRowid (i : Instruction) : MachineM (Except Nat Int) := do
  let first ←
    if (← Machine.cursor i.p1).randomRowid then pure (.ok 0) else nextRowid i.p1
  match first with
  | .error code => return .error code
  | .ok v =>
    match ← aboveCounter i v with
    | .error code => return .error code
    | .ok v => if (← Machine.cursor i.p1).randomRowid then drawFree i.p1 100 else return .ok v

def newRowid (i : Instruction) : MachineM Flow := do
  match ← freeRowid i with
  | .error code => Machine.abort code
  | .ok v =>
    Machine.modifyCursor i.p1 fun c => { c.stale with deferred := none }
    modifyCell (← slot i.p2) fun c => { c with payload := intToWord v }
    return .next

def rowData (i : Instruction) : MachineM Unit := do
  let c ← Machine.cursor i.p1
  let t ← Machine.treeOf c
  Machine.moveCursor i.p1 c (c.position.note t).2
  let record := (c.position.entry t).record
  modifyCellWith (← slot i.p2) fun name d =>
    let d := (d.clearAndResize name (max record.length 32)).fill record
    { d with flags := d.flags.retype .onlyBlob }

def create (isTable : Bool) (i : Instruction) : MachineM Unit := do
  let root ← modifyGet fun m =>
    let (root, database) := Database.addTree isTable m.database
    (root, { m with database })
  modifyCell (← slot i.p2) fun c => { c with payload := intToWord root }

def clear (i : Instruction) : MachineM Flow := do
  match (← get).database.tree? i.p1 with
  | none => return .fail Machine.codeCorrupt
  | some t =>
    Machine.keepOthers i.p1 none
    modify fun m =>
      let (t, space) := t.clear.run m.database.space
      { m with database := m.database.setTree i.p1 t space }
    if 0 < i.p3 then
      modifyCell (← slot i.p3) fun c =>
        { c with payload := intToWord (c.int + t.entries.length) }
    return .next

end Direct

end QueryMachine
