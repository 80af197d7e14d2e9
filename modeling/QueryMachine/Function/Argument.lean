import QueryMachine.Function.Registry

/-!
What a function reads and answers. A function works on the cells of its arguments: an argument that is
read as text is text from then on. The answer is an outcome, which is then written to a cell.
-/

namespace QueryMachine

namespace Argument

def kind (r : Nat) : BankM Value.Kind := return (← Bank.cell r).flags.kind

def text? (r : Nat) : BankM (Option Bytes) := do
  let (text, c) := (← Bank.cell r).valueText (← Bank.freshName)
  Bank.putCell r c
  return text

/-- The length of an argument; a number is made a text first. -/
def size (r : Nat) : BankM Nat := do
  let (n, c) := (← Bank.cell r).valueBytes (← Bank.freshName)
  Bank.putCell r c
  return n

/-- Reads an argument as text with its length. -/
def sized? (r : Nat) : BankM (Option Bytes) := do
  let text ← text? r
  let n ← size r
  return text.map (·.take n)

/-- Reads an argument as a blob; nothing if it is empty. -/
def blob? (r : Nat) : BankM (Option Bytes) := do
  if (← Bank.cell r).flags.textual then
    Bank.modifyCellWith r fun name c =>
      let c := c.expandBlob name
      { c with flags := { c.flags with blob := true } }
    let c ← Bank.cell r
    return if c.size = 0 then none else some c.bytes
  else sized? r

def int (r : Nat) : BankM Int := return (← Bank.cell r).intValue

def half (r : Nat) : BankM Int := return wrapHalf (← int r)

def real (r : Nat) : BankM Double := return (← Bank.cell r).realValue

end Argument

/-- What a function answers. A text that is said to be `ended` has a zero byte behind it. -/
inductive Outcome
  /-- The function does not say anything. -/
  | nothing
  | null
  | int (n : Int)
  | real (x : Double)
  /-- A text that is kept elsewhere for as long as the machine runs. -/
  | fixedText (bytes : Bytes) (ended : Bool)
  | text (bytes : Bytes) (ended : Bool := false)
  /-- A text that was made for the answer. -/
  | madeText (bytes : Bytes) (ended : Bool := false)
  /-- A text in a buffer that is handed over. -/
  | ownText (bytes : Bytes) (ended : Bool := false)
  | blob (bytes : Bytes)
  | madeBlob (bytes : Bytes)
  | zeros (n : Int)
  | same (c : Cell)
  | error (code : Nat) (message : Bytes)
  deriving Repr, DecidableEq, Inhabited

namespace Outcome

/-- Writes an outcome to a cell that has no value. -/
def write (o : Outcome) (name : Nat) (c : Cell) : Cell :=
  match o with
  | .nothing => c
  | .null => c.setNull
  | .int n => c.setInt n
  | .real x => c.setReal x
  | .fixedText b ended => c.setStatic name { str := true, term := ended } b
  | .text b ended => c.setBytes name { str := true, term := ended } b
  | .madeText b ended => c.setForeign name { str := true, term := ended } b
  | .ownText b ended => c.adoptBytes name { str := true, term := ended } b
  | .blob b => c.setBytes name .onlyBlob b
  | .madeBlob b => c.setForeign name .onlyBlob b
  | .zeros n => c.setZeroBlob n
  | .same src => Cell.copy name src c
  | .error _ message => c.setBytes name { str := true, term := true } message

def code : Outcome → Nat
  | .error code _ => code
  | _ => 0

def ofString (s : String) : Outcome := .fixedText (Bytes.ofString s) true

def failure (message : String) : Outcome := .error 1 (Bytes.ofString message)

def tooBig : Outcome := .error 18 (Bytes.ofString "string or blob too big")

end Outcome

end QueryMachine
