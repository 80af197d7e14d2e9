import QueryMachine.Instruction
import QueryMachine.Number.Draw
import QueryMachine.Opcode.Status
import QueryMachine.Store.Catalog
import QueryMachine.Store.Cursor

/-!
Machines. A machine runs one program on registers, variables and cursors over a database. Between two
runs it keeps where the program is to go on.
-/

namespace QueryMachine

/-- One executed instruction and what it changed in the registers. -/
structure TraceEntry where
  address : Int
  op : Opcode
  changes : List (Nat × View) := []
  deriving Repr, DecidableEq, Inhabited

structure Machine where
  bank : Bank
  program : Array Instruction
  status : Status
  registry : Registry := {}
  database : Database
  /-- The database before the program wrote to it. -/
  before : Option Database := none
  /-- The tables and indexes that are known; nothing after a description was refused. -/
  catalog : Option Catalog := some []
  cursors : Array (Option Cursor)
  /-- The contexts of aggregates, by register. -/
  contexts : List (Nat × Context) := []
  once : Array Bool
  /-- The number of registers that are not taken by cursors. -/
  registers : Nat
  width : Nat
  result : Int := -1
  hasRow : Bool := false
  /-- Where the next run starts; negative before the first one. -/
  pc : Int := -1
  halted : Bool := false
  message : Option Bytes := none
  /-- The schema is not the one that the program was made for. -/
  expired : Bool := false
  /-- The first parameters on which the way the program works depends. -/
  expiring : BitVec 32 := 0
  inTransaction : Bool := false
  /-- The format in which the tracked rules write records. -/
  format : Nat := 255
  /-- What the last comparison of two vectors gave, for the tracked and for the direct rules. -/
  order : Ordering := .eq
  directOrder : Ordering := .eq
  /-- Readers of rows that were made at another time must not be used. -/
  stamp : Nat := 1
  /-- Random words, and how many of them have been used. -/
  draws : Nat → Nat := drawWord
  drawn : Nat := 0
  /-- The moment that programs take for the present, in milliseconds. -/
  clock : Int := 212633985600000
  lastRowid : Int := 0
  /-- How many rows the statement before changed, and how many all statements did. -/
  changes : Nat := 0
  totalChanges : Nat := 0
  /-- How many more instructions may be executed. -/
  budget : Nat := 1500
  trace : List TraceEntry := []
  /-- What the registers showed before the last traced instruction. -/
  shown : List View := []

abbrev MachineM := EStateM Fault Machine

namespace Machine

def onBank {α : Type} (x : BankM α) : MachineM α := fun m =>
  match x m.bank with
  | .ok a bank => .ok a { m with bank }
  | .error e bank => .error e { m with bank }

instance : MonadLift BankM MachineM := ⟨onBank⟩

/-- The result codes of a run. -/
def codeError : Nat := 1

def codeBusy : Nat := 5

def codeCorrupt : Nat := 11

def codeFull : Nat := 13

def codeSchema : Nat := 17

def codeMismatch : Nat := 20

def codeRow : Nat := 100

def codeDone : Nat := 101

def codeAbortRollback : Nat := 516

def codeText : Nat → String
  | 1 => "SQL logic error or missing database"
  | 5 => "database is locked"
  | 7 => "out of memory"
  | 11 => "database disk image is malformed"
  | 13 => "database or disk is full"
  | 17 => "database schema has changed"
  | 18 => "string or blob too big"
  | 19 => "constraint failed"
  | 20 => "datatype mismatch"
  | 25 => "bind or column index out of range"
  | 516 => "abort due to ROLLBACK"
  | _ => "unknown error"

/-- What registers and cursor cells are left with when a run ends. -/
def retire (c : Cell) : Cell :=
  let c := if c.flags.dynamic then c.release else { c with room := 0 }
  { c with flags := .onlyUndefined }

/-- Ends the run: cursors are closed, registers lose their values, and `undo` takes back what was
written. -/
def halt (undo : Bool) : MachineM Unit :=
  modify fun m =>
    { m with
      halted := true
      once := m.once.map fun _ => false
      cursors := m.cursors.map fun _ => none
      database := if undo then m.before.getD m.database else m.database
      before := none
      bank :=
        { m.bank with
          cells := m.bank.cells.mapIdx fun i c => if 1 ≤ i && i < m.bank.reach then retire c else c } }

/-- Ends the run because of an error. -/
def abort (code : Nat) : MachineM Flow := do
  modify fun m => { m with message := some (Bytes.ofString (codeText code)) }
  halt (code = 7 || code = 9 || code = 10 || code = 13)
  return .fail codeError

/-- The cursor with a number; a number that cursors do not have is not answered for. -/
def cursor? (i : Int) : MachineM (Option Cursor) := do
  if 0 ≤ i then return ((← get).cursors[i.toNat]?).join else return none

def setCursor (i : Int) (c : Option Cursor) : MachineM Unit :=
  modify fun m => if 0 ≤ i then { m with cursors := m.cursors.setIfInBounds i.toNat c } else m

/-- The cursor with a number, which has to be open. -/
def cursor (i : Int) : MachineM Cursor := do expect (.assertion "") (← cursor? i)

def modifyCursor (i : Int) (f : Cursor → Cursor) : MachineM Unit := do
  match ← cursor? i with
  | some c => setCursor i (some (f c))
  | none => pure ()

def context? (i : Nat) : MachineM (Option Context) := return (← get).contexts.lookup i

def setContext (i : Nat) (c : Option Context) : MachineM Unit :=
  modify fun m =>
    let rest := m.contexts.filter fun x => x.1 != i
    { m with contexts := match c with | some c => (i, c) :: rest | none => rest }

end Machine

end QueryMachine
