import QueryMachine.Record.Serial

/-!
Records: a header with its own length and the type of every field, and behind it the contents of the
fields.
-/

namespace QueryMachine

structure Field where
  type : Nat
  /-- What there is of the content. -/
  bytes : Bytes
  deriving Repr, DecidableEq, Inhabited

namespace Field

/-- The record ends inside the content. -/
def cut (f : Field) : Bool := f.bytes.length < Serial.typeLength f.type

def value (f : Field) : Value := Serial.get f.type f.bytes

end Field

namespace Record

/-- At most `fuel` fields, with the next type at `place` of a header that ends at `stop`, and the
next content at `offset`. -/
def fieldsFrom (record : Bytes) (stop : Nat) : Nat → Nat → Nat → List Field
  | 0, _, _ => []
  | fuel + 1, place, offset =>
    if place < stop && offset ≤ record.length then
      let (t, next) := Varint.decodeAt record place
      let length := Serial.typeLength t
      ⟨t, (record.drop offset).take length⟩ :: fieldsFrom record stop fuel next (offset + length)
    else []

/-- The fields of a record whose header is not longer than the record. -/
def fields? (record : Bytes) : Option (List Field) :=
  let (stop, place) := Varint.decodeAt record 0
  if stop ≤ record.length then some (fieldsFrom record stop record.length place stop) else none

/-- The length of a header whose types take `n` bytes: its own length is part of it. -/
def headerLength (n : Nat) : Nat :=
  if n ≤ 126 then n + 1
  else
    let k := Varint.length n
    if k < Varint.length (n + k) then n + k + 1 else n + k

def encode (fields : List Field) : Bytes :=
  let types := (fields.map fun f => Varint.encode f.type).flatten
  Varint.encode (headerLength types.length) ++ types ++ (fields.map (·.bytes)).flatten

/-- How a value is written in the least number of bytes. -/
def fieldOf (format : Int) : Value → Field
  | .null => ⟨0, []⟩
  | .int n =>
    let t := Serial.leastIntType n format
    ⟨t, Serial.putWord (intToWord n) (Serial.typeLength t)⟩
  | .real x => ⟨7, Serial.putWord x.bits 8⟩
  | .text b => ⟨Serial.stringType true b.length, b⟩
  | .blob b => ⟨Serial.stringType false b.length, b⟩

/-- The integer in the last field of a record that has at least two fields. -/
def lastInt? (record : Bytes) : Option Int :=
  let (stop, _) := Varint.decodeAt record 0
  if stop < 3 || record.length < stop then none
  else
    let (t, _) := Varint.decodeAt record (stop - 1)
    let length := Serial.typeLength t
    if t = 0 || t = 7 || 9 < t || record.length < stop + length then none
    else if 8 ≤ t then some (t - 8)
    else some (Serial.getInt (record.drop (record.length - length)))

def ofValues (format : Int) (values : List Value) : Bytes := encode (values.map (fieldOf format))

end Record

end QueryMachine
