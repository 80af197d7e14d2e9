import QueryMachine.Instruction
import QueryMachine.Record.Field

/-!
The order of records against a key. A key has values for the first columns of an index; a record with
these values is put before the key, behind it or level with it, as the key says.
-/

namespace QueryMachine

structure SearchKey where
  cells : List Content
  info : KeyInfo
  /-- The order of a record that has all the values of the key. -/
  tie : Ordering := .eq
  deriving Repr, DecidableEq, Inhabited

namespace Field

def int (f : Field) : Int := if 8 ≤ f.type then f.type - 8 else Serial.getInt f.bytes

def real (f : Field) : Double :=
  if f.type = 7 then ⟨UInt64.ofNat (Serial.getNat f.bytes)⟩ else .ofInt f.int

def compareReal (x y : Double) : Ordering := if x.lt y then .lt else if y.lt x then .gt else .eq

/-- The order of a field against a value; nothing if the field is cut off. -/
def compare (coll : Collation) (f : Field) (c : Content) : Option Ordering :=
  if c.flags.int then
    if 12 ≤ f.type then some .gt
    else if f.type = 0 then some .lt
    else if f.type = 7 then some (compareReal f.real (.ofInt c.int))
    else some (Ord.compare f.int c.int)
  else if c.flags.real then
    if 12 ≤ f.type then some .gt
    else if f.type = 0 then some .lt
    else some (compareReal f.real c.real)
  else if c.flags.str then
    if f.type < 12 then some .lt
    else if f.type % 2 = 0 then some .gt
    else if f.cut then none
    else some (coll.compare f.bytes c.bytes)
  else if c.flags.blob then
    if f.type < 12 || f.type % 2 = 1 then some .lt
    else if f.cut then none
    else some (f.bytes.compare c.bytes)
  else some (if f.type = 0 then .eq else .gt)

end Field

namespace SearchKey

def direct (descending : Bool) (o : Ordering) : Ordering := if descending then o.swap else o

/-- The order of the fields from column `i` on against the values from there on. -/
def compareFrom (k : SearchKey) : Nat → List Field → List Content → Option Ordering
  | i, f :: fs, c :: cs =>
    match f.compare (k.info.collation i) c with
    | some .eq => k.compareFrom (i + 1) fs cs
    | some o => some (direct (k.info.descending i) o)
    | none => none
  | _, _, _ => some k.tie

/-- The order of a record against the key; nothing if the record is damaged. -/
def compare (k : SearchKey) (record : Bytes) : Option Ordering := do
  k.compareFrom 0 (← Record.fields? record) k.cells

end SearchKey

/-- A value as the content of a cell. -/
def Content.ofValue : Value → Content
  | .null => { flags := .onlyNull }
  | .int n => { flags := .onlyInt, payload := intToWord n }
  | .real x => { flags := .onlyReal, payload := x.bits }
  | .text b => { flags := .onlyStr, size := b.length, data := some ⟨0, b⟩, encoding := 1 }
  | .blob b => { flags := .onlyBlob, size := b.length, data := some ⟨0, b⟩, encoding := 1 }

/-- A record as a key: its columns and at most one more field. -/
def SearchKey.ofRecord (info : KeyInfo) (record : Bytes) : SearchKey where
  cells :=
    (((Record.fields? record).getD []).take (info.columns.length + 1)).map fun f =>
      Content.ofValue f.value
  info

end QueryMachine
