import QueryMachine.Machine.Basic

/-!
Transactions, the numbers that are kept with the database, and the descriptions of its tables.
-/

namespace QueryMachine.Direct

open Bank

/-- Starts a transaction. A program that was made for another schema is given up. -/
def transaction (i : Instruction) : MachineM Flow := do
  modify fun m =>
    { m with
      inTransaction := true
      before := if i.p2 = 0 then m.before else some (m.before.getD m.database) }
  if i.p5 != 0 && ((← get).database.cookie 1 != i.p3 || i.p4.toInt != 0) then
    modify fun m =>
      { m with
        message := some (Bytes.ofString (Machine.codeText Machine.codeSchema))
        expired := true }
    return .fail Machine.codeSchema
  else return .next

def readCookie (i : Instruction) : MachineM Unit := do
  let n := (← get).database.cookie i.p3
  modifyCell (← slot i.p2) fun c => { c with flags := .onlyInt, payload := intToWord n }

/-- The number of the cookie that holds the format of records. -/
def formatCookie : Int := 2

def setCookie (i : Instruction) : MachineM Unit := do
  let r ← slot i.p3
  modifyCell r Cell.integerify
  let n := (← cell r).int
  modify fun m =>
    let database := m.database.setCookie i.p2 n
    { m with
      database :=
        if i.p2 = formatCookie then { database with format := (n % 256).toNat } else database }

/-- Reads the descriptions that satisfy a condition. If the condition or one of them cannot be read,
nothing is known afterwards. -/
def parseSchema (i : Instruction) : MachineM Flow := do
  let m ← get
  match m.catalog, Condition.ofText? (i.p4.text?.getD []), m.database.tree? 1 with
  | some catalog, some condition, some t =>
    match catalog.addRows ((Catalog.rows t).filter condition.holds) with
    | (catalog, none) =>
      modify fun m => { m with catalog := some catalog }
      return .next
    | (_, some message) =>
      modify fun m => { m with catalog := none, message := some message }
      return .fail Machine.codeCorrupt
  | _, _, _ =>
    modify fun m => { m with catalog := none }
    return .fail Machine.codeError

def dropTable (i : Instruction) : MachineM Unit :=
  modify fun m => { m with catalog := m.catalog.map (Catalog.dropTable (i.p4.text?.getD [])) }

end QueryMachine.Direct
