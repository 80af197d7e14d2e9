import QueryMachine.Record.Field

/-!
Reading single fields of a record. The header is read as far as the columns that are asked for need
it, and what was read is kept for the next column.
-/

namespace QueryMachine

structure Reader where
  record : Bytes
  size : Nat
  /-- How many bytes of the record are at hand. -/
  near : Nat
  header : Nat
  types : List Nat := []
  /-- Where the contents of these types start, and where the next content does. -/
  offsets : List Nat
  /-- Where the next type is. -/
  place : Nat
  deriving Repr, DecidableEq, Inhabited

namespace Reader

/-- No header is longer. -/
def headerLimit : Nat := 98307

def start (record : Bytes) (size near : Nat) : Reader :=
  let (header, place) := Varint.decodeAt record 0
  { record, size, near := if near < header then 0 else near, header, offsets := [header], place }

/-- The header can be there. -/
def sound (r : Reader) : Bool := r.header ≤ headerLimit && r.header ≤ r.size

def offset (r : Reader) (i : Nat) : Nat := r.offsets.getD i 0

/-- Reads at most `fuel` types, up to the one of column `i`. -/
def parse (i : Nat) : Nat → Reader → Reader
  | 0, r => r
  | fuel + 1, r =>
    let (t, place) := Varint.decodeAt r.record r.place
    let next := r.offset r.types.length + Serial.typeLength t
    if 4294967296 ≤ next then { r with place := r.header + 1 }
    else
      let r := { r with types := r.types ++ [t], offsets := r.offsets ++ [next], place }
      if r.types.length ≤ i && place < r.header then parse i fuel r else r

/-- What has been read fits the length of the record. -/
def consistent (r : Reader) : Bool :=
  let next := r.offset r.types.length
  next ≤ r.size && (r.place < r.header || r.place == r.header && next == r.size)

/-- Reads the header up to column `i`; answers whether it is in order. -/
def advance (i : Nat) (r : Reader) : Bool × Reader :=
  if i < r.types.length || r.header ≤ r.place then (true, r)
  else
    let r := r.parse i (r.header - r.place)
    (r.consistent, r)

def field? (r : Reader) (i : Nat) : Option Field :=
  match r.types[i]? with
  | some t => some ⟨t, (r.record.drop (r.offset i)).take (Serial.typeLength t)⟩
  | none => none

/-- The whole content of a column is at hand. -/
def isNear (r : Reader) (i : Nat) : Bool := r.offset (i + 1) ≤ r.near

end Reader

end QueryMachine
