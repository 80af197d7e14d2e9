import QueryMachine.Cell.Storage
import QueryMachine.Number.Basic

/-!
Conversions between the kinds of a value: reading a cell as a number or as text, forcing it to one
kind, and giving it the affinity of a column.
-/

namespace QueryMachine

/-- What a column would like its values to be. -/
inductive Affinity
  | none
  | text
  | numeric
  | integer
  | real
  deriving Repr, DecidableEq, Inhabited

namespace Affinity

def ofCode? : Int → Option Affinity
  | 65 => some .none
  | 66 => some .text
  | 67 => some .numeric
  | 68 => some .integer
  | 69 => some .real
  | _ => Option.none

def code : Affinity → Nat
  | .none => 65
  | .text => 66
  | .numeric => 67
  | .integer => 68
  | .real => 69

/-- Every affinity but `none` and `text` asks for a number. -/
def isNumeric : Affinity → Bool
  | .none | .text => false
  | .numeric | .integer | .real => true

end Affinity

namespace Cell

def readInt (c : Cell) : Decimal.IntReading := Decimal.readInt c.bytes

def readReal (c : Cell) : Decimal.RealReading := Decimal.readReal c.bytes

def intValue (c : Cell) : Int :=
  if c.flags.int then c.int
  else if c.flags.real then c.real.toInt64Clamped
  else if c.flags.textual then c.readInt.value
  else 0

def realValue (c : Cell) : Double :=
  if c.flags.real then c.real
  else if c.flags.int then .ofInt c.int
  else if c.flags.textual then c.readReal.value
  else .zero

/-- A double with an integer value strictly inside the 64-bit range becomes that integer. -/
def integerAffinity (c : Cell) : Cell :=
  let n := c.real.toInt64Clamped
  if (Double.ofInt n).beq c.real && minWord < n && n < maxWord then
    { c with payload := intToWord n, flags := c.flags.retype .onlyInt }
  else c

def integerify (c : Cell) : Cell :=
  { c with payload := intToWord c.intValue, flags := c.flags.retype .onlyInt }

def realify (c : Cell) : Cell :=
  { c with payload := c.realValue.bits, flags := c.flags.retype .onlyReal }

/-- Forces the content to be a number, or nothing. -/
def numerify (c : Cell) : Cell :=
  let c :=
    if c.flags.int || c.flags.real || c.flags.null then c
    else
      let read := c.readInt
      if read.fit = .exact then
        { c with payload := intToWord read.value, flags := c.flags.retype .onlyInt }
      else c.realify.integerAffinity
  { c with flags := { c.flags with str := false, blob := false } }

/-- Writes a number as text beside the number, or in its place if `force`. -/
def stringify (name : Nat) (force : Bool) (c : Cell) : Cell :=
  let text := if c.flags.int then Decimal.ofInt c.int else Decimal.ofReal c.real
  let d := c.clearAndResize name 32
  { d with
    data := d.data.map fun b => { b with bytes := text }
    size := text.length
    encoding := 1
    flags :=
      { d.flags with
        str := true
        term := true
        int := d.flags.int && !force
        real := d.flags.real && !force } }

/-- Adds the number that a text stands for, if all of the text is a number. -/
def applyNumericAffinity (tryInt : Bool) (c : Cell) : Cell :=
  let real := c.readReal
  if real.whole then
    let int := c.readInt
    if int.fit = .exact then
      { c with payload := intToWord int.value, flags := { c.flags with int := true } }
    else
      let c := { c with payload := real.value.bits, flags := { c.flags with real := true } }
      if tryInt then c.integerAffinity else c
  else c

/-- Gives a value the affinity of a column, where that loses nothing. -/
def applyAffinity (name : Nat) (aff : Affinity) (c : Cell) : Cell :=
  if aff.isNumeric then
    if c.flags.int then c
    else if c.flags.real then c.integerAffinity
    else if c.flags.str then c.applyNumericAffinity true
    else c
  else if aff = .text && !c.flags.str && c.flags.numeric then c.stringify name true
  else c

/-- Forces a value to the kind of an affinity. -/
def cast (name : Nat) (aff : Affinity) (c : Cell) : Cell :=
  if c.flags.null then c
  else match aff with
    | .none =>
      if c.flags.blob then { c with flags := c.flags.storage.union { blob := true, zero := c.flags.zero } }
      else
        let c := c.applyAffinity name .text
        { c with flags := c.flags.retype .onlyBlob }
    | .numeric => c.numerify
    | .integer => c.integerify
    | .real => c.realify
    | .text =>
      let c := { c with flags := { c.flags with str := c.flags.str || c.flags.blob } }
      let c := c.applyAffinity name .text
      { c with flags := { c.flags with int := false, real := false, blob := false, zero := false } }

/-- The kind of number that a content stands for. A text is read, and what was read replaces the
payload. -/
def numericType (c : Cell) : Flags × Cell :=
  if c.flags.numeric then (c.flags.numericKind, c)
  else if c.flags.textual then
    let real := c.readReal
    if real.whole then
      let int := c.readInt
      let c := { c with payload := intToWord int.value }
      (if int.fit = .exact then .onlyInt else .onlyReal, c)
    else (.none, { c with payload := real.value.bits })
  else (.none, c)

/-- The content as a text that a zero byte ends; nothing for no value. -/
def valueText (name : Nat) (c : Cell) : Option Bytes × Cell :=
  if c.flags.str && c.flags.term && c.encoding == 1 then (c.data.map (·.bytes), c)
  else if c.flags.null then (none, c)
  else
    let d :=
      if c.flags.textual then
        ({ c with flags := { c.flags with str := true } }.expandBlob name).nulTerminate name
      else c.stringify name false
    (d.data.map (·.bytes), d)

/-- The length of the content as a string of bytes. -/
def valueBytes (name : Nat) (c : Cell) : Nat × Cell :=
  let count (c : Cell) : Nat := if c.flags.zero then c.size + c.zeros.toNat else c.size
  if c.flags.blob then (count c, c)
  else
    let (text, c) := c.valueText name
    (if text.isSome then count c else 0, c)

/-- The kind of a value after a text that is a number has been taken as one. -/
def numericKind (c : Cell) : Value.Kind × Cell :=
  if c.flags.kind = .text then
    let c := c.applyNumericAffinity false
    (c.flags.kind, c)
  else (c.flags.kind, c)

end Cell

end QueryMachine
