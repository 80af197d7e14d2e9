import QueryMachine.Record.Field
import QueryMachine.Step.Register

/-!
Records from registers. Counted zeros at the end of a record stay counted; anywhere else they are
written out.
-/

namespace QueryMachine

open Bank

/-- The `n` registers from `r` on. -/
def Instruction.span (r n : Int) : List Int := (List.range n.toNat).map fun (k : Nat) => r + k

namespace Tracked

/-- What is known of a record before it is written. -/
structure Layout where
  forms : List SerialForm := []
  /-- The length of the contents. -/
  data : Int := 0
  /-- The length of the types. -/
  header : Nat := 0
  zeros : Int := 0
  deriving Repr, DecidableEq, Inhabited

/-- Lays out one more register. -/
def Layout.add (format : Int) (l : Layout) (i : Int) : BankM Layout := do
  let r ← register i
  check (← isValid r)
  let form ← serialForm r format
  let l := { l with forms := l.forms ++ [form], header := l.header + form.header }
  if (← flags r).zero then
    if l.data != 0 then
      expandBlob r
      return { l with data := l.data + form.length }
    else
      let zeros := 2 * (← cell r).zeros
      return { l with data := l.data + form.length - zeros, zeros }
  else return { l with data := l.data + form.length }

/-- The contents of registers that have been laid out. -/
def contents : List (Int × SerialForm) → BankM Bytes
  | [] => return []
  | (i, form) :: rest => do
    let bytes ← serialBytesOfLength (← register i) form.length.toNat
    return bytes ++ (← contents rest)

/-- Makes a record of registers in format `format`. The first letter of the affinities goes for all of
them. -/
def makeRecord (format : Int) (i : Instruction) : BankM Unit := do
  let out ← register i.p3
  let fields := Instruction.span i.p1 i.p2
  match i.p4.text? with
  | some (letter :: _) => for r in fields do applyAffinity (← register r) letter.toNat
  | _ => pure ()
  let layout ← fields.foldlM (Layout.add format) {}
  let header := Record.headerLength layout.header
  let size := header + layout.data
  grow out size.toNat false
  let types := (layout.forms.map fun f => Varint.encode f.type).flatten
  let contents ← contents (fields.zip layout.forms)
  check (Varint.length header + types.length == header)
  let record := Varint.encode header ++ types ++ contents
  putCell out { (← cell out).fill record with size := size.toNat, flags := .onlyBlob }
  setFlags out .onlyBlob
  if layout.zeros != 0 then
    modifyCell out fun c => { c with payload := Content.withZeros c.payload layout.zeros }
    setFlags out { blob := true, zero := true }

end Tracked

namespace Cell

/-- The type of a cell in a record, in the least number of bytes. -/
def serialType (format : Int) (c : Cell) : Nat :=
  if c.flags.null then 0
  else if c.flags.int then Serial.leastIntType c.int format
  else if c.flags.real then 7
  else Serial.stringType c.flags.str (c.size + if c.flags.zero then c.zeros.toNat else 0)

/-- What a cell of type `t` adds to the contents of a record; counted zeros are not written. -/
def serialBytes (t : Nat) (c : Cell) : Bytes :=
  if 1 ≤ t && t ≤ 7 then Serial.putWord c.payload (Serial.typeLength t)
  else if 12 ≤ t then c.bytes
  else []

end Cell

namespace Direct

/-- The fields of registers, the last register first, in front of the fields `after`, which take
`data` bytes; counts the zeros at the end. -/
def fields (format : Int) : List Int → Nat → List Field → Nat → BankM (List Field × Nat)
  | [], _, after, zeros => return (after, zeros)
  | i :: rest, data, after, zeros => do
    let r ← slot i
    let t := (← cell r).serialType format
    if (← cell r).flags.zero && data != 0 then modifyCellWith r Cell.expandBlob
    let c ← cell r
    let bytes := c.serialBytes t
    let zeros := zeros + if c.flags.zero then c.zeros.toNat else 0
    fields format rest (data + bytes.length) (⟨t, bytes⟩ :: after) zeros

/-- Makes a record of registers in format `format`. -/
def makeRecord (format : Int) (i : Instruction) : BankM Unit := do
  let letters := i.p4.text?.getD []
  for (letter, k) in letters.zipIdx do
    modifyCellWith (← slot (i.p1 + k)) fun name => Cell.applyAffinity name (letterAffinity letter)
  let (fields, zeros) ← fields format (Instruction.span i.p1 i.p2).reverse 0 [] 0
  let record := Record.encode fields
  modifyCellWith (← slot i.p3) fun name c =>
    let c := (c.clearAndResize name record.length).fill record
    if zeros = 0 then { c with flags := .onlyBlob }
    else
      { c with
        flags := { blob := true, zero := true }
        payload := Content.withZeros c.payload zeros }

end Direct

end QueryMachine
