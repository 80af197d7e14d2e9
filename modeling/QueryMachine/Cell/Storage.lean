import QueryMachine.Cell.Basic

/-!
How a cell takes, gives back and shares buffers. A function that may need a new buffer is given a
`name` for it that no other buffer has.
-/

namespace QueryMachine.Cell

/-- Makes room for `n` bytes in the own buffer and puts the string there. A buffer with room enough
keeps the string that it has. -/
def grow (name n : Nat) (preserve : Bool) (c : Cell) : Cell :=
  let kept := if preserve then c.bytes else []
  let flags := { c.flags with dyn := false, ephem := false, static := false }
  match c.own with
  | some own =>
    if c.room < n then
      { c with flags, data := some ⟨name, kept⟩, own := some name, room := capacity n }
    else { c with flags, data := some ⟨own, if c.isOwner then c.bytes else kept⟩ }
  | none => { c with flags, data := some ⟨name, kept⟩, own := some name, room := capacity n }

/-- Makes room for `n` bytes and gives up any string. -/
def clearAndResize (name n : Nat) (c : Cell) : Cell :=
  if c.room < n then c.grow name n false
  else
    { c.grow name n false with
      flags := { null := c.flags.null, int := c.flags.int, real := c.flags.real } }

/-- What a cell has written to the start of its buffer: the string, and zero bytes that end it. -/
def written (c : Cell) : Bytes :=
  match c.data with
  | some b =>
    b.bytes.take c.size ++ if c.flags.term && c.size ≤ b.bytes.length then [0, 0] else []
  | none => []

/-- Whether a cell that was `old` before has written to the buffer that it had then. -/
def overwrites (c old : Cell) : Bool :=
  c.own.isSome && old.own == c.own && c.isOwner &&
    (old.data != c.data || c.flags.term && !old.flags.term)

/-- A cell after `c` has written to its buffer: a string in the same buffer starts with what was
written, and keeps its length. -/
def seeing (c d : Cell) : Cell :=
  match c.data, d.data with
  | some b, some shared =>
    if b.name = shared.name then
      let new := c.written
      { d with data := some { shared with bytes := new ++ shared.bytes.drop new.length } }
    else d
  | _, _ => d

/-- Puts bytes in place of the string. -/
def fill (bytes : Bytes) (c : Cell) : Cell :=
  { c with data := c.data.map fun b => { b with bytes }, size := bytes.length, encoding := 1 }

/-- Puts bytes at the start of the string; what lies behind them in the buffer stays. -/
def overlay (bytes : Bytes) (c : Cell) : Cell :=
  { c with
    data := c.data.map fun b => { b with bytes := bytes ++ b.bytes.drop bytes.length }
    size := bytes.length
    encoding := 1 }

/-- Turns counted zero bytes into bytes of the string. -/
def expandBlob (name : Nat) (c : Cell) : Cell :=
  if c.flags.zero then
    let zeros := c.zeros.toNat
    let grown := c.grow name (max 1 (c.size + zeros)) true
    { grown with
      data := grown.data.map fun b => { b with bytes := b.bytes ++ List.replicate zeros 0 }
      size := c.size + zeros
      flags := { grown.flags with zero := false, term := false } }
  else c

/-- Puts a zero byte behind the string, in the own buffer. -/
def addTerminator (name : Nat) (c : Cell) : Cell :=
  let grown := c.grow name (c.size + 2) true
  { grown with flags := { grown.flags with term := true } }

/-- Moves the string into the own buffer, where it may be overwritten. -/
def makeWriteable (name : Nat) (c : Cell) : Cell :=
  let c := c.expandBlob name
  if c.flags.textual && (c.room == 0 || !c.isOwner) then c.addTerminator name else c

def nulTerminate (name : Nat) (c : Cell) : Cell :=
  if c.flags.str && !c.flags.term then c.addTerminator name else c

/-- Gives back what hangs on the cell from outside. -/
def clearExtern (c : Cell) : Cell := { c with flags := .onlyNull, attachment := .nothing }

/-- A cell that nothing hangs on from outside any more. -/
def released (c : Cell) : Cell := if c.flags.dynamic then c.clearExtern else c

/-- Gives back everything outside the cell. -/
def release (c : Cell) : Cell :=
  let cleared := c.released
  if c.flags.dynamic || c.room != 0 then { cleared with room := 0, data := none } else c

def setNull (c : Cell) : Cell :=
  if c.flags.dynamic then c.clearExtern else { c with flags := .onlyNull }

def setInt (n : Int) (c : Cell) : Cell :=
  { c.setNull with payload := intToWord n, flags := .onlyInt }

def setReal (x : Double) (c : Cell) : Cell :=
  if x.isNaN then c.setNull else { c.setNull with payload := x.bits, flags := .onlyReal }

def setZeroBlob (n : Int) (c : Cell) : Cell :=
  let c := c.release
  { c with
    flags := { blob := true, zero := true }
    size := 0
    payload := Content.withZeros c.payload (max n 0)
    encoding := 1
    data := none }

def setRowSet (name : Nat) (s : RowSet) (c : Cell) : Cell :=
  { c.release with own := some name, room := 64, flags := { rowSet := true }, attachment := .rowSet s }

def setBytes (name : Nat) (kind : Flags) (bytes : Bytes) (c : Cell) : Cell :=
  { (c.clearAndResize name (max 32 bytes.length)).fill bytes with flags := kind }

def setValue (name : Nat) (v : Value) (c : Cell) : Cell :=
  match v with
  | .null => c.setNull
  | .int n => c.setInt n
  | .real x => c.setReal x
  | .text b => c.setBytes name .onlyStr b
  | .blob b => c.setBytes name .onlyBlob b

/-- Refers to a string that is kept elsewhere for as long as the machine runs. -/
def setStatic (name : Nat) (kind : Flags) (bytes : Bytes) (c : Cell) : Cell :=
  { c.release with
    data := some ⟨name, bytes⟩
    size := bytes.length
    flags := { kind with static := true }
    encoding := 1 }

/-- Takes over a string that is given back when the cell is overwritten. -/
def setForeign (name : Nat) (kind : Flags) (bytes : Bytes) (c : Cell) : Cell :=
  { c.release with
    data := some ⟨name, bytes⟩
    size := bytes.length
    flags := { kind with dyn := true }
    encoding := 1 }

/-- Takes over a string in a buffer that becomes the own one. -/
def adoptBytes (name : Nat) (kind : Flags) (bytes : Bytes) (c : Cell) : Cell :=
  { c.release with
    data := some ⟨name, bytes⟩
    size := bytes.length
    own := some name
    room := capacity bytes.length
    flags := kind
    encoding := 1 }

inductive Loan
  | ephem
  | static
  deriving Repr, DecidableEq, Inhabited

def Loan.mark (loan : Loan) (f : Flags) : Flags :=
  if f.static then f
  else { f with dyn := false, static := loan == .static, ephem := loan == .ephem }

/-- The content of `src` in `c`, which keeps its own buffer. -/
def withContent (c src : Cell) : Cell :=
  { c with toContent := src.toContent, attachment := src.attachment }

def shallowCopy (loan : Loan) (src c : Cell) : Cell :=
  let c := c.released.withContent src
  { c with flags := loan.mark c.flags }

def copy (name : Nat) (src c : Cell) : Cell :=
  let c := c.released.withContent src
  let c := { c with flags := { c.flags with dyn := false } }
  if c.flags.textual && !src.flags.static then
    { c with flags := { c.flags with ephem := true } }.makeWriteable name
  else c

def moveFrom (src : Cell) : Cell := src

/-- What is left of a cell whose content has been moved away. -/
def movedAway (src : Cell) : Cell := { src with flags := .onlyNull, room := 0, attachment := .nothing }

end QueryMachine.Cell
