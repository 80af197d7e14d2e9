import QueryMachine.Cell.Flags
import QueryMachine.Fault
import QueryMachine.Number.Basic
import QueryMachine.Number.Word

/-!
What is known about the cells of a bank. A sheet has one fact for each cell: which of its marks, its
integer and its double are known, and the constants it was given. Equal sheets are kept once, in a
ledger; a sheet that comes out of a change is the one that the ledger already holds, if there is one.
-/

namespace QueryMachine

/-- Which parts of a cell are known. -/
structure Known where
  flags : Bool := false
  int : Bool := false
  real : Bool := false
  constant : Bool := false
  deriving Repr, DecidableEq, Inhabited

namespace Known

def toNat (k : Known) : Nat :=
  k.flags.toNat + 2 * k.int.toNat + 4 * k.real.toNat + 8 * k.constant.toNat

def ofNat (n : Nat) : Known := ⟨n.testBit 0, n.testBit 1, n.testBit 2, n.testBit 3⟩

def union (a b : Known) : Known :=
  ⟨a.flags || b.flags, a.int || b.int, a.real || b.real, a.constant || b.constant⟩

def nothing : Known := {}

def isNothing (k : Known) : Bool := k == nothing

end Known

structure Fact where
  flags : Flags := .none
  known : Known := .nothing
  int : Int := 0
  real : Number := .int 0
  deriving Repr, DecidableEq, Inhabited

namespace Fact

/-- Facts are the same if their constants are equal as numbers. -/
def same (a b : Fact) : Bool :=
  a.flags == b.flags && a.known == b.known && a.int == b.int && a.real.eq b.real

def isConstantInt (f : Fact) : Bool := f.known.int && f.known.constant

def isConstantReal (f : Fact) : Bool := f.known.real && f.known.constant

end Fact

structure Sheet where
  /-- Tells sheets apart that were made at different times. -/
  serial : Nat
  facts : List Fact
  deriving Repr, DecidableEq, Inhabited

structure Ledger where
  sheets : List Sheet := []
  next : Nat := 0
  deriving Repr, DecidableEq, Inhabited

abbrev LedgerM := EStateM Fault Ledger

namespace Sheet

def same (a b : Sheet) : Bool :=
  a.facts.length == b.facts.length && (a.facts.zip b.facts).all fun (x, y) => x.same y

/-- One step of the check sum over a sheet. -/
def mix (x y : Int) : Int := wordToInt (intToWord (1000003 * x) ^^^ intToWord y)

/-- A number as it enters the check sum. -/
def mixable : Number → Except Fault Int
  | .int n => .ok n
  | .real x =>
    match x.trunc? with
    | some n => .ok n
    | none => .error (if x.isNaN then .badValue else .integerRange)

/-- The check sum of a sheet. An infinite constant does not have one. -/
def hash (s : Sheet) : Except Fault Int := do
  let x := s.facts.foldl (fun x f => mix x f.flags.toNat) 0x345678
  let x := s.facts.foldl (fun x f => mix x f.known.toNat) x
  let x := s.facts.foldl (fun x f => mix x f.int) x
  s.facts.foldlM (fun x f => return mix x (← mixable f.real)) x

/-- Nothing is known about `n` cells. -/
def blank (n : Nat) : LedgerM Sheet :=
  modifyGet fun l => (⟨l.next, List.replicate n {}⟩, { l with next := l.next + 1 })

def copy (s : Sheet) : LedgerM Sheet :=
  modifyGet fun l => ({ s with serial := l.next }, { l with next := l.next + 1 })

/-- The sheet of the ledger that is the same as `s`; `s` itself is entered if there is none. -/
def unique (s : Sheet) : LedgerM Sheet := do
  match s.hash with
  | .error e => throw e
  | .ok _ =>
    modifyGet fun l =>
      match l.sheets.find? (·.same s) with
      | some old => (old, l)
      | none => (s, { l with sheets := l.sheets ++ [s] })

/-- The cell that a position means; a negative one counts from the end. -/
def position (s : Sheet) (i : Int) : LedgerM Nat :=
  match wrapIndex? s.facts.length i with
  | some k => pure k
  | none => throw .outOfRange

def fact (s : Sheet) (i : Nat) : Fact := s.facts.getD i {}

/-- The sheet with another fact at `i`, from the ledger. -/
def change (s : Sheet) (i : Nat) (f : Fact) : LedgerM Sheet := do
  let s ← ({ s with facts := s.facts.set i f } : Sheet).copy
  s.unique

def setKnown (s : Sheet) (i : Nat) (k : Known) : LedgerM Sheet :=
  if (s.fact i).known = k then pure s else s.change i { s.fact i with known := k }

def addKnown (s : Sheet) (i : Nat) (k : Known) : LedgerM Sheet :=
  s.setKnown i ((s.fact i).known.union k)

def setFlags (s : Sheet) (i : Nat) (flags : Flags) : LedgerM Sheet := do
  if (s.fact i).known.flags && (s.fact i).flags == flags then pure s
  else
    let s ← s.addKnown i { flags := true }
    s.change i { s.fact i with flags }

def setConstantInt (s : Sheet) (i : Nat) (n : Int) : LedgerM Sheet := do
  let s ← s.addKnown i { int := true, constant := true }
  s.change i { s.fact i with int := n }

def setConstantReal (s : Sheet) (i : Nat) (x : Number) : LedgerM Sheet := do
  let s ← s.addKnown i { real := true, constant := true }
  s.change i { s.fact i with real := x }

/-- Forgets everything about cell `i` but the constants it had. -/
def forget (s : Sheet) (i : Nat) : LedgerM Sheet := do
  if (s.fact i).known.isNothing then pure s
  else
    let s ← s.setFlags i .none
    s.setKnown i .nothing

end Sheet

end QueryMachine
