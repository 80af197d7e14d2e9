import QueryMachine.Cell.Convert

/-!
The order of values: no value, then numbers, then texts, then blobs. Texts are ordered by a
collation, blobs as strings of bytes.
-/

namespace QueryMachine.Cell

/-- The order of two numbers; an integer beside a double is rounded to a double first. -/
def compareNumbers (a b : Cell) : Ordering :=
  if a.flags.int && b.flags.int then compare a.int b.int
  else
    let x := if a.flags.real then a.real else .ofInt a.int
    let y := if b.flags.real then b.real else .ofInt b.int
    if x.lt y then .lt else if y.lt x then .gt else .eq

def compareStrings (coll : Option Collation) (a b : Cell) : Ordering :=
  match a.flags.str, b.flags.str with
  | true, true => (coll.getD .binary).compare a.bytes b.bytes
  | true, false => .lt
  | false, true => .gt
  | false, false => Bytes.compare a.bytes b.bytes

def compare (coll : Option Collation) (a b : Cell) : Ordering :=
  if a.flags.null || b.flags.null then Ord.compare b.flags.null.toNat a.flags.null.toNat
  else if a.flags.numeric || b.flags.numeric then
    if !a.flags.numeric then .gt
    else if !b.flags.numeric then .lt
    else compareNumbers a b
  else compareStrings coll a b

end QueryMachine.Cell
