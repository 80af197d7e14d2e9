import QueryMachine.Function.Argument
import QueryMachine.Text.Format

/-!
Arguments written by a format. Fields take the arguments in their order. When there are none left, an
integer or a real is zero and a text is missing.
-/

namespace QueryMachine.Format

/-- The first argument as an integer, and those behind it. -/
def takeInt : List Nat → BankM (Int × List Nat)
  | [] => return (0, [])
  | r :: rest => return (← Argument.int r, rest)

def takeReal : List Nat → BankM (Double × List Nat)
  | [] => return (.zero, [])
  | r :: rest => return (← Argument.real r, rest)

def takeText : List Nat → BankM (Option Bytes × List Nat)
  | [] => return (none, [])
  | r :: rest => return ((← Argument.text? r).map Bytes.untilZero, rest)

/-- The first argument as a count, if the count is an argument. -/
def takeCount (c : Option Count) (args : List Nat) : BankM (Int × List Nat) := do
  if c = some .argument then
    let (n, args) ← takeInt args
    return (wrapHalf n, args)
  else return (0, args)

/-- Writes a field. If there is no room for it, there is no draft to go on with. -/
def writeField (f : Field) (args : List Nat) (d : Draft) : BankM (Option Draft × List Nat) := do
  let (width, args) ← takeCount (some f.width) args
  let (precision, args) ← takeCount f.precision args
  let l := Layout.ofField f width precision
  match f.conversion with
  | .integer signed base upper mark =>
    let (n, args) ← takeInt args
    return ((l.integer? signed base upper mark n).map (l.place · d), args)
  | .real style upper =>
    let (x, args) ← takeReal args
    return (some (l.place (l.real style upper x) d), args)
  | .nothing => return (some (d.add {}), args)
  | .percent => return (some (l.place { rest := [37] } d), args)
  | .char =>
    let (b, args) ← takeText args
    return (some (l.placeByte ((b.getD []).headD 0) d), args)
  | .text =>
    let (b, args) ← takeText args
    return (some (l.place { rest := l.cut (b.getD []) } d), args)
  | .quoted quote enclosed =>
    let (b, args) ← takeText args
    return (some (l.place { rest := l.quoted quote enclosed b } d), args)

def writePieces : List Piece → List Nat → Draft → BankM Draft
  | [], _, d => return d
  | .literal b :: rest, args, d => writePieces rest args (d.add { rest := b })
  | .field f :: rest, args, d => do
    let (more, args) ← writeField f args d
    match more with
    | none => return d
    | some d => writePieces rest args d

def write (format : Bytes) (args : List Nat) : BankM (Option Bytes) :=
  return (← writePieces (pieces format) args .untouched).toOption

end QueryMachine.Format
