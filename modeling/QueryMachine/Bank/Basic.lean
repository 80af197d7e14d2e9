import QueryMachine.Cell.Compare
import QueryMachine.Knowledge.Sheet

/-!
Banks of cells and what is known about them. While a program runs, the current sheet is held inside
the run; between two runs it is held outside. Every access to a cell goes through the current sheet:
what is known is not read again, and what is written becomes known.
-/

namespace QueryMachine

structure Holder where
  /-- The sheet on which nothing is known. -/
  blank : Sheet
  outside : Option Sheet
  /-- The sheet of the run that is going on; it may be missing although there is a run. -/
  inside : Option (Option Sheet) := none
  useCache : Bool := true
  deriving Repr, DecidableEq, Inhabited

def Holder.current? (h : Holder) : Option Sheet :=
  match h.inside with
  | some s => s
  | none => h.outside

structure Bank where
  cells : Array Cell
  holder : Holder
  ledger : Ledger
  /-- How many of the cells are registers; those behind them are variables. -/
  reach : Nat
  /-- Whether the cells have facts on the sheets. -/
  indexed : Bool := true
  /-- The next name for a buffer. -/
  fresh : Nat
  deriving Repr, DecidableEq, Inhabited

abbrev BankM := EStateM Fault Bank

/-- Gives up if `p` does not hold. -/
def check {σ : Type} (p : Bool) : EStateM Fault σ Unit :=
  if p then pure () else throw (.assertion "")

/-- Hands on a value or gives up. -/
def expect {σ α : Type} (e : Fault) : Option α → EStateM Fault σ α
  | some a => pure a
  | none => throw e

namespace Bank

/-- A bank of cells about which nothing is known. -/
def ofCells (cells : Array Cell) (useCache indexed : Bool) (fresh : Nat) : Bank :=
  let blank : Sheet := ⟨0, List.replicate cells.size {}⟩
  { cells
    holder := { blank, outside := some blank, useCache }
    ledger := { next := 1 }
    reach := cells.size
    indexed
    fresh }

def withLedger {α : Type} (x : LedgerM α) : BankM α := fun b =>
  match x b.ledger with
  | .ok a ledger => .ok a { b with ledger }
  | .error e ledger => .error e { b with ledger }

def cell (i : Nat) : BankM Cell := return (← get).cells.getD i {}

def setCell (i : Nat) (c : Cell) : BankM Unit :=
  modify fun b => { b with cells := b.cells.setIfInBounds i c }

def modifyCell (i : Nat) (f : Cell → Cell) : BankM Unit := do setCell i (f (← cell i))

/-- Sets a cell whose string may have changed. Other cells with a string in the same buffer see what
was written there. -/
def putCell (i : Nat) (c : Cell) : BankM Unit := do
  let old ← cell i
  setCell i c
  if c.overwrites old then
    modify fun b =>
      { b with cells := b.cells.mapIdx fun j d => if j = i then d else c.seeing d }

/-- The cell of a register; a negative number counts from the last register. -/
def register (i : Int) : BankM Nat := do
  expect .unknownRegister (wrapIndex? (← get).reach i)

/-- The cell with a number, for rules that do not check it. -/
def slot (i : Int) : BankM Nat := do
  let b ← get
  return if 0 ≤ i then i.toNat else b.cells.size

/-- The cell of a variable, counted from zero; a negative number counts from the last one. -/
def parameter (i : Int) : BankM Nat := do
  let b ← get
  return b.reach + (← expect .unknownVariable (wrapIndex? (b.cells.size - b.reach) i))

def freshName : BankM Nat := modifyGet fun b => (b.fresh, { b with fresh := b.fresh + 1 })

/-- Changes a cell by a rule that may need a new buffer. -/
def modifyCellWith (i : Nat) (f : Nat → Cell → Cell) : BankM Unit := do
  let name ← freshName
  putCell i (f name (← cell i))

def modifyHolder (f : Holder → Holder) : BankM Unit :=
  modify fun b => { b with holder := f b.holder }

def current? : BankM (Option Sheet) := return (← get).holder.current?

def current : BankM Sheet := do expect .absent (← current?)

/-- Makes `s` the current sheet; where nothing may be known, the blank one. -/
def remember (s : Option Sheet) : BankM Unit :=
  modifyHolder fun h =>
    let s := if h.useCache then s else some h.blank
    if h.inside.isSome then { h with inside := some s } else { h with outside := s }

/-- Ends a run. -/
def prepareReturn : BankM Unit := do
  check (← get).holder.outside.isNone
  let s ← current?
  modifyHolder fun h => { h with outside := s, inside := none }

/-- Starts a run. -/
def reenter : BankM Unit := do
  check (← get).holder.inside.isNone
  modifyHolder fun h => { h with inside := some h.outside, outside := none }

def hide : BankM Unit := modifyHolder fun h => { h with inside := none }

def reveal (s : Option Sheet) : BankM Unit := modifyHolder fun h => { h with inside := some s }

def forgetFact (i : Nat) : BankM Unit := do
  let s ← current
  remember (← withLedger (s.forget i))

/-- Forgets what is known about the cell at a position of the sheet. -/
def forgetAt (i : Int) : BankM Unit := do
  let s ← current
  forgetFact (← withLedger (s.position i))

def forgetAll : BankM Unit := do remember (← get).holder.blank

def forgetAllOutside : BankM Unit := do
  check (← get).holder.inside.isNone
  modifyHolder fun h => { h with outside := some h.blank }

def flags (i : Nat) : BankM Flags := do
  let raw := (← cell i).flags
  if (← get).indexed then
    let s ← current
    let f := s.fact i
    if f.known.flags then
      check (f.flags == raw)
      return f.flags
    else
      remember (← withLedger (s.setFlags i raw))
      return raw
  else return raw

/-- Notes that a cell has the marks `flags`, and writes them if `write`. -/
def noteFlags (write : Bool) (i : Nat) (flags : Flags) : BankM Unit := do
  let put : BankM Unit := if write then modifyCell i fun c => { c with flags } else pure ()
  if (← get).indexed then
    let s ← current
    let f := s.fact i
    if f.known.flags && f.flags == flags then pure ()
    else
      put
      if (← get).holder.useCache then
        remember (← withLedger (s.setFlags i flags))
        let f := (← current).fact i
        check (f.known.flags && f.flags == flags && (← cell i).flags == flags)
  else put

def setFlags (i : Nat) (flags : Flags) : BankM Unit := noteFlags true i flags

def int (i : Nat) : BankM Int := do
  let raw := (← cell i).int
  if (← get).indexed then
    let f := (← current).fact i
    return if f.isConstantInt then f.int else if f.known.int then 0 else raw
  else return raw

def real (i : Nat) : BankM Number := do
  let raw := (← cell i).real
  if (← get).indexed then
    let f := (← current).fact i
    return if f.isConstantReal then f.real else if f.known.real then .real .zero else .real raw
  else return .real raw

def setInt (i : Nat) (n : Int) (constant : Bool) : BankM Unit := do
  if !fitsWord n then throw .integerRange
  modifyCell i fun c => { c with payload := intToWord n }
  if (← get).indexed then
    let s ← current
    if constant then remember (← withLedger (s.setConstantInt i n))
    else
      let k := (s.fact i).known
      remember (← withLedger (s.setKnown i { k with int := false, constant := false }))

def setReal (i : Nat) (x : Number) (constant : Bool) : BankM Unit := do
  modifyCell i fun c => { c with payload := x.toDouble.bits }
  if (← get).indexed then
    let s ← current
    if constant then remember (← withLedger (s.setConstantReal i x))
    else
      let k := (s.fact i).known
      remember (← withLedger (s.setKnown i { k with real := false, constant := false }))

def isConstantInt (i : Nat) : BankM Bool := do
  if (← get).indexed then return ((← current).fact i).isConstantInt else return false

def isConstantReal (i : Nat) : BankM Bool := do
  if (← get).indexed then return ((← current).fact i).isConstantReal else return false

/-- Forgets what is known about a cell, because it is about to be changed directly. -/
def invalidate (i : Nat) : BankM Unit := do if (← get).indexed then forgetFact i

/-- Gives up if what is known about a cell is not so. -/
def checkFacts (i : Nat) : BankM Unit := do
  if (← get).indexed then
    let f := (← current).fact i
    let c ← cell i
    if f.known.flags then check ((← flags i) == c.flags)
    if f.known.real then check ((Number.real c.real).eq (← real i))
    if f.known.int then check (c.int == (← int i))

end Bank

end QueryMachine
