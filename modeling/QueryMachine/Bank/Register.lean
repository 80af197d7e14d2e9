import QueryMachine.Bank.Basic
import QueryMachine.Record.Serial

/-!
The rules by which registers change when every access goes through the current sheet. A rule that
hands a cell to one of the direct rules forgets first what is known about it.
-/

namespace QueryMachine.Bank

/-- The integer part of a number that is not infinite. -/
def truncate : Number → BankM Int
  | .int n => pure n
  | .real x =>
    match x.trunc? with
    | some n => pure n
    | none => throw (if x.isNaN then .badValue else .integerRange)

/-- Hands a cell to a direct rule. -/
def direct (i : Nat) (rule : Nat → Cell → Cell) : BankM Unit := do
  invalidate i
  modifyCellWith i rule

def retype (i : Nat) (kind : Flags) : BankM Unit := do setFlags i ((← flags i).retype kind)

def isDynamic (i : Nat) : BankM Bool := return (← flags i).dynamic

/-- Gives back what hangs on the cell from outside. -/
def clearExtern (i : Nat) : BankM Unit := do
  modifyCell i Cell.clearExtern
  invalidate i

/-- Gives back what hangs on the cell from outside, if anything does. -/
def releaseExtern (i : Nat) : BankM Unit := do if ← isDynamic i then clearExtern i

/-- Gives back the string and the own buffer; how much would fit into it is not forgotten. -/
def clearStorage (i : Nat) : BankM Unit := do
  releaseExtern i
  modifyCell i fun c => { c with own := if c.room != 0 then none else c.own, data := none }

def release (i : Nat) : BankM Unit := do
  releaseExtern i
  if (← isDynamic i) || (← cell i).room != 0 then clearStorage i

def setNull (i : Nat) : BankM Unit := do
  if (← flags i).frame || (← flags i).rowSet then direct i fun _ => Cell.setNull
  else retype i .onlyNull

def setInteger (i : Nat) (n : Int) (constant : Bool := false) : BankM Unit := do
  if (← flags i) != .onlyInt then
    release i
    setFlags i .onlyInt
  setInt i n constant

def setDouble (i : Nat) (x : Number) : BankM Unit := do
  if x.isNaN then setNull i
  else
    if (← flags i) != .onlyReal then
      release i
      setFlags i .onlyReal
    setReal i x false

/-- The best integer for the content; it need not fit into a cell. -/
def intValue (i : Nat) : BankM Int := do
  let f ← flags i
  if f.int then int i
  else if f.real then truncate (← real i)
  else if f.textual then return (← cell i).readInt.value
  else return 0

/-- The best number for the content; an integer stays one. -/
def realValue (i : Nat) : BankM Number := do
  let f ← flags i
  if f.real then real i
  else if f.int then return .int (← int i)
  else if f.textual then return .real (← cell i).readReal.value
  else return .real .zero

/-- Takes the payload as a double; if it has an integer value strictly inside the 64-bit range, the
register becomes that integer. Answers the marks from before. -/
def integerAffinity (i : Nat) : BankM Flags := do
  let f ← flags i
  check (!f.rowSet)
  let x ← real i
  let n ← truncate x
  if x.eq (.real (.ofInt n)) && n < maxWord && minWord < n then
    setInt i n false
    retype i .onlyInt
  return f

def integerify (i : Nat) : BankM Unit := do
  if !(← flags i).int then setInt i (← intValue i) false
  retype i .onlyInt

def realify (i : Nat) : BankM Unit := do
  setReal i (← realValue i) false
  retype i .onlyReal

/-- Forces the content to be a number. What is asserted and written in the end are the marks from
before, so a text or a blob does not get through. -/
def numerify (i : Nat) : BankM Unit := do
  let f ← flags i
  if !(f.int || f.real || f.null) then
    check f.textual
    let read := (← cell i).readInt
    if read.fit = .exact then
      setInt i read.value false
      retype i .onlyInt
    else
      realify i
      discard (integerAffinity i)
  check (f.int || f.real || f.null)
  setFlags i { f with str := false, blob := false }

def stringify (i : Nat) (force : Bool) : BankM Unit := direct i fun name => Cell.stringify name force

def nulTerminate (i : Nat) : BankM Unit := do
  let f ← flags i
  if f.str && !f.term then direct i Cell.nulTerminate

def applyNumericAffinity (i : Nat) (tryInt : Bool) : BankM Unit :=
  direct i fun _ => Cell.applyNumericAffinity tryInt

/-- Gives a value the affinity with this code. Under a numeric affinity a double is left alone, and
what is neither a number nor a text has its payload taken as a double. -/
def applyAffinity (i : Nat) (code : Int) : BankM Unit := do
  let f ← flags i
  if Affinity.numeric.code ≤ code then
    check (Affinity.ofCode? code).isSome
    if !f.int && !f.real then
      if f.str then applyNumericAffinity i true else discard (integerAffinity i)
  else if code = Affinity.text.code then
    if !f.str && f.numeric then stringify i true

/-- Forces a value to the kind of the affinity with this code. -/
def cast (i : Nat) (code : Int) : BankM Unit := do
  let f ← flags i
  if f.null then return
  match Affinity.ofCode? code with
  | some .none => throw (.assertion "implement me!")
  | some .numeric => numerify i
  | some .integer => integerify i
  | some .real => realify i
  | some .text =>
    setFlags i { f with str := f.str || f.blob }
    applyAffinity i Affinity.text.code
    check (← flags i).str
    let f ← flags i
    setFlags i { f with int := false, real := false, blob := false, zero := false }
  | Option.none => throw (.assertion "unknown affinity")

/-- The kind of number that a content stands for. A text is read, and what was read replaces the
payload. -/
def numericType (i : Nat) : BankM Flags := do
  let f ← flags i
  if f.numeric then return f.numericKind
  else if f.textual then
    let c ← cell i
    let read := c.readReal
    setReal i (.real read.value) false
    if !read.whole then return .none
    setInt i c.readInt.value false
    return if c.readInt.fit = .exact then .onlyInt else .onlyReal
  else return .none

def isValid (i : Nat) : BankM Bool := return !(← flags i).undefined

def expandBlob (i : Nat) : BankM Unit := do
  if (← flags i).zero then direct i Cell.expandBlob

def grow (i n : Nat) (preserve : Bool) : BankM Unit :=
  direct i fun name => Cell.grow name n preserve

/-- Takes the payload of register `j`, as far as its marks `f` name it. -/
def takePayload (i j : Nat) (f : Flags) : BankM Unit := do
  if f.real then setReal i (← real j) false
  if f.int then setInt i (← int j) false
  if f.zero then
    let zeros := (← cell j).zeros
    modifyCell i fun c => { c with payload := Content.withZeros c.payload zeros }

/-- Refers to the string of register `j`, which has the marks `f`, and to what hangs on it. -/
def takeString (i j : Nat) (f : Flags) (loan : Option Cell.Loan) : BankM Unit := do
  if f.agg then check (f == { agg := true })
  if f.frame then check (f == { frame := true })
  let src ← cell j
  modifyCell i fun c =>
    { c with
      encoding := src.encoding
      size := src.size
      data := src.data
      attachment := src.attachment }
  match f.static, loan with
  | true, _ => setFlags i f
  | false, some loan => setFlags i (loan.mark f)
  | false, none => throw (.assertion "")

/-- Takes the content of register `j` and borrows its string. -/
def shallowCopy (i j : Nat) (loan : Option Cell.Loan) : BankM Unit := do
  check (!(← flags j).rowSet)
  releaseExtern i
  let f ← flags j
  takePayload i j f
  takeString i j f loan

def copyWhole (i j : Nat) : BankM Unit := do
  invalidate i
  setCell i (← cell j)
  let f ← flags j
  check ((← cell i).flags == f)
  noteFlags false i f

/-- Moves the content of register `j`, which is left without a value. -/
def moveFrom (i j : Nat) : BankM Unit := do
  release i
  copyWhole i j
  setFlags j .onlyNull
  modifyCell j fun c => { c with room := 0, attachment := .nothing }

/-- Moves the string into the own buffer. The marks that say how it was borrowed stay. -/
def makeWriteable (i : Nat) : BankM Unit := do
  check (!(← flags i).rowSet)
  expandBlob i
  let f ← flags i
  if f.textual && !(← cell i).isOwner then
    direct i Cell.addTerminator
    setFlags i { f with term := true }

/-- The number in a register with the marks `f`; an integer is rounded. -/
def rounded (i : Nat) (f : Flags) : BankM Number := do
  if f.real then real i else return .real (.ofInt (← int i))

/-- The order of two registers. A number and something else are out of order either way round. -/
def compare (i j : Nat) (coll : Option Collation) : BankM Ordering := do
  let f ← flags i
  let g ← flags j
  if f.null || g.null then return Ord.compare g.null.toNat f.null.toNat
  else if f.numeric || g.numeric then
    if f.int && g.int then return Ord.compare (← int i) (← int j)
    else if !f.numeric then return .gt
    else
      let x ← rounded i f
      if !g.numeric then return .gt
      let y ← rounded j g
      return if x.lt y then .lt else if x.gt y then .gt else .eq
  else
    invalidate i
    invalidate j
    return Cell.compare coll (← cell i) (← cell j)

/-- How a register is written in a record: its type, its length, and the length of the type. -/
structure SerialForm where
  type : Nat
  length : Int
  header : Nat
  deriving Repr, DecidableEq, Inhabited

def SerialForm.ofType (t : Nat) : SerialForm := ⟨t, Serial.fixedLengths.getD t 0, 1⟩

def serialForm (i : Nat) (format : Int) : BankM SerialForm := do
  let f ← flags i
  if f.null then return .ofType 0
  else if f.int then return .ofType (Serial.intType (← int i) format)
  else if f.real then return .ofType 7
  else
    let c ← cell i
    let n : Int := c.size + if f.zero then c.zeros else 0
    check (0 ≤ n)
    let t := Serial.stringType f.str n.toNat
    return ⟨t, n, if t ≤ 127 then 1 else Varint.length t⟩

/-- The bytes of a register of type `t`, as they stand in its cell. -/
def serialBytes (i t : Nat) : BankM Bytes := do
  let c ← cell i
  if 1 ≤ t && t ≤ 7 then return Serial.putWord c.payload (Serial.typeLength t)
  else if 12 ≤ t then return c.bytes
  else return []

/-- The next `length` bytes that a register is written with. -/
def serialBytesOfLength (i : Nat) (length : Nat) : BankM Bytes := do
  let f ← flags i
  if f.null then return []
  else if f.int then return Serial.putWord (intToWord (← int i)) length
  else if f.real then return Serial.putWord (← real i).toDouble.bits length
  else
    let bytes := ((← cell i).data.map (·.bytes)).getD []
    return (bytes ++ List.replicate (length - bytes.length) 0).take length

def valueKind (i : Nat) : BankM Value.Kind := return (← flags i).kind

def numericKind (i : Nat) : BankM Value.Kind := do
  if (← valueKind i) = .text then applyNumericAffinity i false
  valueKind i

def valueText (i : Nat) : BankM (Option Bytes) := do
  let f ← flags i
  check (!f.rowSet)
  let c ← cell i
  if f.str && f.term && c.encoding == 1 then return c.data.map (·.bytes)
  else if f.null then return none
  else
    invalidate i
    let name ← freshName
    let (text, c) := (← cell i).valueText name
    putCell i c
    return text

def valueBytes (i : Nat) : BankM Int := do
  if !(← flags i).blob then
    if (← valueText i).isNone then return 0
  let f ← flags i
  let c ← cell i
  return c.size + if f.zero then c.zeros else 0

/-- A text or a blob, with the length that it is said to have. -/
def valueData (i : Nat) : BankM Bytes := do
  let n ← valueBytes i
  return ((← valueText i).getD []).take n.toNat

def value (i : Nat) : BankM Value := do
  match ← valueKind i with
  | .integer => return .int (← intValue i)
  | .float => return .real (← realValue i).toDouble
  | .text => return .text (← valueData i)
  | .blob => return .blob (← valueData i)
  | .null => return .null

/-- Notes flags that the register is known to have. -/
def assureFlags (i : Nat) (f : Flags) : BankM Unit := do
  check ((← cell i).flags == f)
  noteFlags false i f

def setText (i : Nat) (bytes : Bytes) : BankM Unit :=
  direct i fun name => Cell.setBytes name .onlyStr bytes

end QueryMachine.Bank
