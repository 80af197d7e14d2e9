import QueryMachine.Machine.Trees

/-!
Columns of rows. The header of a row is read once, as far as it is needed; what was read serves until
the cursor moves or a row of results is handed out.
-/

namespace QueryMachine

open Bank

namespace Cell

/-- Takes the value of a field; a string is copied into the own buffer. -/
def load (name : Nat) (f : Field) (c : Cell) : Cell :=
  let c := if c.flags.dynamic then c.setNull else c
  match f.value with
  | .text b =>
    { (c.clearAndResize name (b.length + 2)).fill b with flags := { str := true, term := true } }
  | .blob b =>
    { (c.clearAndResize name (b.length + 2)).fill b with flags := { blob := true, term := true } }
  | .int n => { c with flags := .onlyInt, payload := intToWord n, encoding := 1 }
  | .real x => { c with flags := .onlyReal, payload := x.bits, encoding := 1 }
  | .null =>
    let payload := if f.type = 7 then UInt64.ofNat (Serial.getNat f.bytes) else c.payload
    { c with flags := .onlyNull, payload, encoding := 1 }

/-- Takes the value of a field that does not lie together with its entry. -/
def loadFar (name : Nat) (f : Field) (c : Cell) : Cell :=
  let length := Serial.typeLength f.type
  if length = 0 then c.load name f
  else
    let c := c.load name ⟨12 + 2 * length, f.bytes⟩
    if f.type < 12 then c.load name f
    else { c with flags := if f.type % 2 = 0 then .onlyBlob else .onlyStr }

/-- Takes the kind and the length of a field, but no value. -/
def loadShape (name : Nat) (f : Field) (c : Cell) : Cell :=
  let c := if c.flags.dynamic then c.setNull else c
  if f.type < 14 then c.load name ⟨f.type, List.replicate (Serial.typeLength f.type) 0⟩
  else
    { c with
      flags := { str := f.type % 2 = 1, blob := f.type % 2 = 0, ephem := true }
      size := Serial.typeLength f.type
      data := none
      encoding := 1 }

end Cell

namespace Direct

/-- Brings a cursor to the row that it is to read; answers whether it is there. -/
def arrive (i : Int) : MachineM Bool := do
  let c ← Machine.cursor i
  match c.deferred with
  | some key =>
    match ← Machine.seekRow i c key with
    | some .eq =>
      Machine.modifyCursor i fun c => { c.stale with deferred := none }
      return true
    | _ => return false
  | none => if c.pseudo?.isSome then return true else Machine.restoreCursor i

/-- The reader of the row at a cursor: the one that was made before, or a new one. -/
def openReader (c : Cursor) : MachineM (Option (Reader × Cursor)) := do
  let m ← get
  match c.source with
  | .register r =>
    let d ← cell (← slot r)
    let buffer := d.data.map (·.name)
    if c.stamp = m.stamp then
      let reader := c.reader.getD default
      return some (if c.buffer = buffer then { reader with record := d.bytes } else reader, c)
    else
      let reader := Reader.start d.bytes d.size d.size
      return some (reader, { c with reader := some reader, buffer, stamp := m.stamp })
  | _ =>
    if c.stamp = m.stamp then return some (c.reader.getD default, c)
    else if c.nullRow then return none
    else
      let t ← Machine.treeOf c
      let record := (c.position.entry t).record
      let reader := Reader.start record record.length (t.localSize record.length)
      let position := (c.position.note t).2
      return some (reader, { c with reader := some reader, stamp := m.stamp, position })

/-- Whether only the kind and the length of a field are asked for. -/
def wantsShape (i : Instruction) (f : Field) : Bool :=
  i.option 7 || i.option 6 && 12 ≤ f.type && f.type % 2 = 0

/-- Reads a column into a register; answers a code. -/
def column (i : Instruction) : MachineM Flow := do
  if !(← arrive i.p1) then Machine.abort Machine.codeCorrupt
  else
    let out ← slot i.p3
    match ← openReader (← Machine.cursor i.p1) with
    | none =>
      modifyCell out Cell.setNull
      return .next
    | some (reader, c) =>
      Machine.setCursor i.p1 (some c)
      if !reader.sound then return .fail Machine.codeCorrupt
      let (ok, reader) := reader.advance i.p2.toNat
      Machine.setCursor i.p1 (some { c with reader := some reader })
      if !ok then return .fail Machine.codeCorrupt
      match reader.field? i.p2.toNat with
      | none => modifyCell out Cell.setNull
      | some f =>
        modifyCellWith out fun name d =>
          if reader.isNear i.p2.toNat then d.load name f
          else if wantsShape i f then d.loadShape name f
          else d.loadFar name f
      return .next

end Direct

namespace Tracked

/-- Takes note of what a direct rule has written to the output register. -/
def noteOutput (i : Instruction) (x : MachineM Flow) : MachineM Flow := do
  let flow ← x
  match flow with
  | .next =>
    let out ← register i.p3
    let flags := (← cell (← slot i.p3)).flags
    invalidate out
    noteFlags false out flags
  | _ => pure ()
  return flow

def column (i : Instruction) : MachineM Flow := noteOutput i (Direct.column i)

end Tracked

end QueryMachine
