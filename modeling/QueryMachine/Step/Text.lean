import QueryMachine.Machine.Basic

/-!
Instructions that put texts and blobs into registers. They work on the cells.
-/

namespace QueryMachine.Direct

open Bank

/-- Refers to the text of an instruction, of which `size` bytes count. -/
def string (size : Int) (i : Instruction) : BankM Unit := do
  let bytes := match i.p4 with | .bytes b => b | _ => []
  modifyCellWith (← slot i.p2) fun name c =>
    { c with
      flags := { str := true, static := true, term := true }
      data := some ⟨name, (bytes ++ List.replicate (size.toNat - bytes.length) 0).take size.toNat⟩
      size := size.toNat
      encoding := 1 }

/-- From now on the instruction at `pc` has the length of its text as an operand. -/
def string8 (pc : Int) (i : Instruction) : MachineM Unit := do
  let size := (i.p4.text?.getD []).length
  modify fun m =>
    match wrapIndex? m.program.size pc with
    | some k => { m with program := m.program.setIfInBounds k { i with op := .string, p1 := size } }
    | none => m
  string size i

def blob (i : Instruction) : BankM Unit := do
  match i.p4 with
  | .bytes b =>
    modifyCellWith (← slot i.p2) fun name => Cell.setStatic name .onlyBlob (b.take i.p1.toNat)
  | _ => modifyCell (← slot i.p2) Cell.setNull

/-- A number as a text, beside the number. -/
def asText (name : Nat) (c : Cell) : Cell :=
  let c := c.expandBlob name
  if c.flags.textual then c else c.stringify name false

/-- Joins two texts; the second operand comes first. The first one is read after that has been
written, so it must not lie in the buffer of the output. -/
def concat (i : Instruction) : BankM Unit := do
  let r1 ← slot i.p1
  let r2 ← slot i.p2
  let out ← slot i.p3
  if (← cell r1).flags.null || (← cell r2).flags.null then modifyCell out Cell.setNull
  else
    modifyCellWith r1 asText
    modifyCellWith r2 asText
    let left := (← cell r2).bytes
    let n := (← cell r1).size
    modifyCellWith out fun name c =>
      let c := (c.grow name (left.length + n + 2) (r2 == out)).overlay left
      { c with flags := { c.flags.retype .onlyStr with term := false } }
    let right := { (← cell r1) with size := n }.bytes
    let c := (← cell out).fill (left ++ right)
    putCell out { c with flags := { c.flags with term := true } }

end QueryMachine.Direct
