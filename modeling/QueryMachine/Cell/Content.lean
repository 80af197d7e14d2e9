import QueryMachine.Cell.Flags
import QueryMachine.Number.Word
import QueryMachine.Text.Collation

/-!
The content of a cell: its marks, eight bytes that an integer, a double and a count of zero bytes
share, and a string of bytes that lies in a buffer. Buffers are known by name only.
-/

namespace QueryMachine

structure Buffer where
  name : Nat
  bytes : Bytes
  deriving Repr, DecidableEq, Inhabited

structure Content where
  flags : Flags := .onlyUndefined
  payload : UInt64 := 0
  size : Nat := 0
  data : Option Buffer := none
  encoding : Nat := 0
  deriving Repr, DecidableEq, Inhabited

inductive View
  | undefined
  | null
  | cleared
  | rowSet
  | frame
  | agg
  | dangling
  | parts (text : Option Bytes) (blob : Option Bytes) (zeros : Option Int)
      (int : Option Int) (real : Option Double)
  deriving Repr, DecidableEq, Inhabited

namespace Content

def int (c : Content) : Int := wordToInt c.payload

def real (c : Content) : Double := ⟨c.payload⟩

/-- The count of zero bytes behind the string; it takes the lower half of the payload. -/
def zeros (c : Content) : Int := wrapHalf c.payload.toNat

def bytes (c : Content) : Bytes :=
  match c.data with
  | some b => b.bytes.take c.size
  | none => []

def withZeros (payload : UInt64) (n : Int) : UInt64 :=
  (payload &&& 0xffffffff00000000) ||| (UInt64.ofInt n &&& 0xffffffff)

def view (c : Content) : View :=
  if c.flags.undefined then .undefined
  else if c.flags.null then if c.flags.cleared then .cleared else .null
  else if c.flags.rowSet then .rowSet
  else if c.flags.frame then .frame
  else if c.flags.agg then .agg
  else if c.flags.textual && c.size != 0 && c.data.isNone then .dangling
  else
    let tail := c.flags.blob && c.flags.zero
    .parts
      (if c.flags.str then some c.bytes else none)
      (if c.flags.blob then some c.bytes else none)
      (if tail then some c.zeros else none)
      (if c.flags.int && !tail then some c.int else none)
      (if c.flags.real && !tail then some c.real else none)

end Content

inductive Value
  | null
  | int (n : Int)
  | real (x : Double)
  | text (bytes : Bytes)
  | blob (bytes : Bytes)
  deriving Repr, DecidableEq, Inhabited

namespace Value

/-- The kinds of a value, as they are numbered for callers. -/
inductive Kind
  | integer
  | float
  | text
  | blob
  | null
  deriving Repr, DecidableEq, Inhabited

def Kind.code : Kind → Nat
  | .integer => 1
  | .float => 2
  | .text => 3
  | .blob => 4
  | .null => 5

end Value

/-- The kind that the marks stand for: no value before an integer, that before a double, that before
text. -/
def Flags.kind (f : Flags) : Value.Kind :=
  if f.null then .null
  else if f.int then .integer
  else if f.real then .float
  else if f.str then .text
  else .blob

end QueryMachine
