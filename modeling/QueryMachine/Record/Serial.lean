import QueryMachine.Cell.Content
import QueryMachine.Fault
import QueryMachine.Record.Varint

/-!
How one value is written in a record: a number for its type, which fixes the length, and its bytes.
-/

namespace QueryMachine.Serial

def fixedLengths : List Nat := [0, 1, 2, 3, 4, 6, 8, 8, 0, 0, 0, 0]

def typeLength (t : Nat) : Nat := if 12 ≤ t then (t - 12) / 2 else fixedLengths.getD t 0

/-- The length of a type below twelve; a negative type counts from the end. -/
def fixedLength? (t : Int) : Option Nat := (wrapIndex? fixedLengths.length t).map (fixedLengths.getD · 0)

/-- The least number of bytes that a magnitude needs, as a type. -/
def magnitudeType (u : Nat) : Nat :=
  if u ≤ 32767 then 2
  else if u ≤ 8388607 then 3
  else if u ≤ 2147483647 then 4
  else if u ≤ 140737488355327 then 5
  else 6

/-- The type of an integer in a file of format `format`. The smallest integer of each length is
written with the next one, and formats above four write zero and one without bytes. -/
def intType (n : Int) (format : Int) : Nat :=
  if n < -140737488355327 then 6
  else if n.natAbs ≤ 127 then
    if 4 < format && n = 0 then 8 else if 4 < format && n = 1 then 9 else 1
  else magnitudeType n.natAbs

/-- The type of an integer in the least number of bytes; formats from four on write zero and one
without bytes. -/
def leastIntType (n : Int) (format : Int) : Nat :=
  let u := if n < 0 then (-n - 1).toNat else n.toNat
  if u ≤ 127 then if 4 ≤ format && n = 0 then 8 else if 4 ≤ format && n = 1 then 9 else 1
  else magnitudeType u

def stringType (isText : Bool) (n : Nat) : Nat := 2 * n + 12 + isText.toNat

/-- The lowest `length` bytes of a word, the highest first. -/
def putWord (w : UInt64) : Nat → Bytes
  | 0 => []
  | length + 1 => putWord (w >>> 8) length ++ [w.toUInt8]

/-- The number with these bytes, the highest first. -/
def getNat (bytes : Bytes) : Nat := bytes.foldl (fun n b => 256 * n + b.toNat) 0

/-- The integer with these bytes, the highest bit of which is its sign. -/
def getInt (bytes : Bytes) : Int := Int.bmod (getNat bytes) (Nat.pow 256 bytes.length)

def get (t : Nat) (bytes : Bytes) : Value :=
  if 12 ≤ t then if t % 2 = 0 then .blob bytes else .text bytes
  else if t = 8 then .int 0
  else if t = 9 then .int 1
  else if t = 7 then
    let x : Double := ⟨UInt64.ofNat (getNat bytes)⟩
    if x.isNaN then .null else .real x
  else if 1 ≤ t && t ≤ 6 then .int (getInt bytes)
  else .null

end QueryMachine.Serial
