import QueryMachine.Function.Accumulator
import QueryMachine.Store.RowSet

/-!
Cells. A cell is a content together with the buffer it has allocated for itself, which its string may
or may not use, and with what hangs on it from outside.
-/

namespace QueryMachine

inductive Attachment
  | nothing
  | rowSet (s : RowSet)
  | accumulator (a : Accumulator)
  deriving Repr, DecidableEq, Inhabited

structure Cell extends Content where
  own : Option Nat := none
  /-- How much fits into the own buffer. -/
  room : Nat := 0
  attachment : Attachment := .nothing
  deriving Repr, DecidableEq, Inhabited

namespace Cell

/-- The string lies in the cell's own buffer. -/
def isOwner (c : Cell) : Bool := c.data.map (·.name) == c.own

/-- The size of a new buffer for `n` bytes. Small ones all have the same size. -/
def capacity (n : Nat) : Nat := if n ≤ 128 then 128 else (n + 23) / 16 * 16 - 8

def ofInt (n : Int) : Cell := { flags := .onlyInt, payload := intToWord n }

def ofReal (x : Double) : Cell := { flags := .onlyReal, payload := x.bits }

def null : Cell := { flags := .onlyNull }

def ofBytes (flags : Flags) (name : Nat) (bytes : Bytes) : Cell where
  flags := flags
  size := bytes.length
  data := some ⟨name, bytes⟩
  encoding := 1
  own := some name
  room := capacity bytes.length

def ofValue (name : Nat) : Value → Cell
  | .null => null
  | .int n => ofInt n
  | .real x => ofReal x
  | .text b => ofBytes .onlyStr name b
  | .blob b => ofBytes .onlyBlob name b

/-- A blob of `n` zero bytes that are only counted. -/
def ofZeros (n : Int) : Cell where
  flags := { blob := true, zero := true }
  payload := Content.withZeros 0 n
  encoding := 1

end Cell

end QueryMachine
