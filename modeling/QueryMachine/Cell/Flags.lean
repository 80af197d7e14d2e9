/-!
What a cell says about itself: sixteen independent marks. Nine of them name a kind of content, the
others say how the content is stored. As a number the marks are the bits of a 16-bit word.
-/

namespace QueryMachine

structure Flags where
  null : Bool := false
  str : Bool := false
  int : Bool := false
  real : Bool := false
  blob : Bool := false
  rowSet : Bool := false
  frame : Bool := false
  undefined : Bool := false
  cleared : Bool := false
  term : Bool := false
  dyn : Bool := false
  static : Bool := false
  ephem : Bool := false
  agg : Bool := false
  zero : Bool := false
  spare : Bool := false
  deriving Repr, DecidableEq, Inhabited

namespace Flags

def toList (f : Flags) : List Bool :=
  [f.null, f.str, f.int, f.real, f.blob, f.rowSet, f.frame, f.undefined,
    f.cleared, f.term, f.dyn, f.static, f.ephem, f.agg, f.zero, f.spare]

def toNat (f : Flags) : Nat := f.toList.foldr (fun b n => 2 * n + b.toNat) 0

def ofNat (n : Nat) : Flags where
  null := n.testBit 0
  str := n.testBit 1
  int := n.testBit 2
  real := n.testBit 3
  blob := n.testBit 4
  rowSet := n.testBit 5
  frame := n.testBit 6
  undefined := n.testBit 7
  cleared := n.testBit 8
  term := n.testBit 9
  dyn := n.testBit 10
  static := n.testBit 11
  ephem := n.testBit 12
  agg := n.testBit 13
  zero := n.testBit 14
  spare := n.testBit 15

/-- The marks of a 16-bit word; other numbers have none. -/
def ofInt? (n : Int) : Option Flags :=
  if 0 ≤ n ∧ n < 65536 then some (ofNat n.toNat) else none

def none : Flags := {}

/-- Exactly one mark each. -/
def onlyNull : Flags := { null := true }

def onlyStr : Flags := { str := true }

def onlyInt : Flags := { int := true }

def onlyReal : Flags := { real := true }

def onlyBlob : Flags := { blob := true }

def onlyUndefined : Flags := { undefined := true }

def onlyCleared : Flags := { null := true, cleared := true }

def union (f g : Flags) : Flags where
  null := f.null || g.null
  str := f.str || g.str
  int := f.int || g.int
  real := f.real || g.real
  blob := f.blob || g.blob
  rowSet := f.rowSet || g.rowSet
  frame := f.frame || g.frame
  undefined := f.undefined || g.undefined
  cleared := f.cleared || g.cleared
  term := f.term || g.term
  dyn := f.dyn || g.dyn
  static := f.static || g.static
  ephem := f.ephem || g.ephem
  agg := f.agg || g.agg
  zero := f.zero || g.zero
  spare := f.spare || g.spare

/-- The marks without those of kind and without `zero`. -/
def storage (f : Flags) : Flags :=
  { term := f.term, dyn := f.dyn, static := f.static, ephem := f.ephem, agg := f.agg,
    spare := f.spare }

/-- Gives up every kind for the kinds of `g` and keeps how the content is stored. -/
def retype (f g : Flags) : Flags := f.storage.union g

/-- Some content outside the cell has to be given back before it is overwritten. -/
def dynamic (f : Flags) : Bool := f.agg || f.dyn || f.rowSet || f.frame

def numeric (f : Flags) : Bool := f.int || f.real

def textual (f : Flags) : Bool := f.str || f.blob

/-- The kinds of number alone. -/
def numericKind (f : Flags) : Flags := { int := f.int, real := f.real }

end Flags

end QueryMachine
