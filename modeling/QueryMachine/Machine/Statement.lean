import QueryMachine.Machine.Run
import QueryMachine.Store.Schema

/-!
Statements: how a machine is made, given its parameters, run, asked for the current row and set back.
-/

namespace QueryMachine

/-- What a machine is made of. -/
structure Setup where
  registers : Nat
  cursors : Nat := 0
  parameters : Nat := 0
  onceFlags : Nat := 0
  /-- The first parameters on which the way the program works depends. -/
  expiring : BitVec 32 := 0
  columns : Nat := 0
  program : Array Instruction
  initial : List (Nat × Cell) := []
  /-- The first name that no buffer of these has. -/
  fresh : Nat := 0
  useCache : Bool := true
  status : Status
  registry : Registry := {}
  database : Database
  /-- How many rows the statements put into the tables that made the database, one each. -/
  inserted : Nat := 0

namespace Machine

def ofSetup (s : Setup) : Machine :=
  let reach := 1 + s.registers + s.cursors
  let cells := Array.replicate reach ({} : Cell) ++ Array.replicate s.parameters Cell.null
  let cells := s.initial.foldl (fun cells (i, c) => cells.setIfInBounds i c) cells
  { bank := { Bank.ofCells cells s.useCache true s.fresh with reach }
    program := s.program
    status := s.status
    registry := s.registry
    database := s.database
    catalog := (s.database.tree? 1).map Catalog.ofTree
    changes := min s.inserted 1
    totalChanges := s.inserted
    cursors := Array.replicate s.cursors none
    once := Array.replicate s.onceFlags false
    registers := s.registers
    width := s.columns
    expiring := s.expiring }

def dataCount (m : Machine) : Nat := if m.hasRow then m.width else 0

def variableCount (m : Machine) : Nat := m.bank.cells.size - m.bank.reach

def column (i : Int) : MachineM Nat := do Bank.register ((← get).result + i)

def columnKind (i : Int) : MachineM Value.Kind := do Bank.valueKind (← column i)

def columnInt (i : Int) : MachineM Int := do Bank.intValue (← column i)

def columnReal (i : Int) : MachineM Double := do
  return (← Bank.realValue (← column i) : Number).toDouble

def columnBytes (i : Int) : MachineM Int := do Bank.valueBytes (← column i)

/-- The text of a column up to a zero byte. -/
def columnText (i : Int) : MachineM (Option Bytes) := do
  return (← Bank.valueText (← column i) : Option Bytes).map fun b => b.takeWhile (· != 0)

def columnValue (i : Int) : MachineM Value := do Bank.value (← column i)

def row : MachineM (List Value) := do
  (List.range (← get).dataCount).mapM fun (i : Nat) => columnValue i

/-- Runs at most `fuel` times, as long as there are rows and not more than `limit` of them. -/
def collect (limit : Option Nat) : Nat → List (List Value) → MachineM (List (List Value) × Nat)
  | 0, _ => throw .tooManySteps
  | fuel + 1, rows => do
    let code ← run
    if code = codeRow then
      let rows := (← row) :: rows
      if limit.all (rows.length < ·) then collect limit fuel rows else return (rows.reverse, code)
    else return (rows.reverse, code)

/-- The rows up to the end of the program, or the first ones, and the last code. Every run takes at
least one instruction, so there are not more rows than instructions left. -/
def rows (limit : Option Nat) : MachineM (List (List Value) × Nat) := do
  collect limit ((← get).budget + 1) []

/-- Takes a parameter back to no value; refused while the program is in a run. -/
def unbind (i : Int) : MachineM Unit := do
  let m ← get
  if m.halted || 0 ≤ m.pc then throw .busy
  let r ← Bank.parameter (i - 1)
  Bank.release r
  Bank.setFlags r .onlyNull
  if i < 1 then throw .badValue
  if m.expiring.getLsbD (i - 1).toNat then throw .expiring

def bindNull (i : Int) : MachineM Unit := unbind i

def bindInt (i n : Int) : MachineM Unit := do
  unbind i
  Bank.setInteger (← Bank.parameter (i - 1)) n

def bindReal (i : Int) (x : Double) : MachineM Unit := do
  unbind i
  Bank.setDouble (← Bank.parameter (i - 1)) (.real x)

/-- Gives a parameter a text; answers a code. -/
def bindText (i : Int) (bytes : Bytes) : MachineM Nat := do
  Bank.forgetAllOutside
  let m ← get
  if m.halted || 0 ≤ m.pc then return 21
  else if i < 1 || m.variableCount < i then return 25
  else
    Bank.modifyCellWith (m.bank.reach + (i - 1).toNat) fun name c =>
      { c.release with flags := .onlyNull }.setBytes name .onlyStr bytes
    return 0

/-- Makes the machine ready for another run from the start. Parameters keep their values. -/
def reset : MachineM Unit := do
  Bank.forgetAllOutside
  halt false
  modify fun m =>
    { m with
      halted := false
      message := none
      hasRow := false
      pc := -1
      stamp := 1
      format := 255 }

/-- An instruction in one line of text. -/
def location (pc : Int) : MachineM String := do
  let i ← fetch pc
  let name := if Opcode.runnable.contains i.op then "OP_" ++ i.op.name else ""
  let mark := if i.op.keepsKnowledge then "" else " UNSAFE"
  return s!"{pc} 0 {name} CacheState([], [], [], []) {mark}"

end Machine

end QueryMachine
