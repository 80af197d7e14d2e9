import QueryMachine.Machine.Trees

/-!
Searches: going to a row by its number, to the first entry above or below a key, and asking whether
there is an entry.
-/

namespace QueryMachine

open Bank

/-- Which entries a search is for, as against its key. -/
inductive Bound
  | lt
  | le
  | ge
  | gt
  deriving Repr, DecidableEq, Inhabited

namespace Bound

/-- The order that an entry with all the values of the key is given. -/
def tie : Bound → Ordering
  | .lt | .ge => .gt
  | .le | .gt => .lt

/-- The bound for the integer above a key with a fraction. -/
def forLarger : Bound → Bound
  | .le => .lt
  | .gt => .ge
  | b => b

/-- The bound for the integer below a key with a fraction. -/
def forSmaller : Bound → Bound
  | .lt => .le
  | .ge => .gt
  | b => b

def isUpward : Bound → Bool
  | .ge | .gt => true
  | .lt | .le => false

/-- Whether the entry that a search stopped at is on the wrong side. -/
def misses : Bound → Ordering → Bool
  | .ge, o => o == .lt
  | .gt, o => o != .gt
  | .le, o => o == .gt
  | .lt, o => o != .lt

end Bound

namespace Step

/-- Goes to the next entry or the previous one; answers whether there is one. -/
def moveOn (i : Int) (upward : Bool) : MachineM (Option Bool) := do
  let c ← Machine.cursor i
  let t ← Machine.treeOf c
  let (found, p) := if upward then c.position.next t c.info else c.position.previous t c.info
  Machine.moveCursor i c p
  return found

/-- Goes from where a search stopped to the first entry that it is for; without one it jumps. -/
def finishSeek (b : Bound) (o : Ordering) (i : Instruction) : MachineM Flow := do
  Machine.modifyCursor i.p1 fun c => { c.stale with deferred := none }
  if b.misses o then
    match ← moveOn i.p1 b.isUpward with
    | none => Machine.abort Machine.codeCorrupt
    | some found => return .jumpIf (!found) i.p2
  else if b.isUpward then return .next
  else return .jumpIf (!(← Machine.cursor i.p1).position.isHere) i.p2

def seekTable (b : Bound) (key : Int) (i : Instruction) : MachineM Flow := do
  match ← Machine.seekRow i.p1 (← Machine.cursor i.p1) key with
  | none => Machine.abort Machine.codeCorrupt
  | some o => finishSeek b o i

def seekIndex (b : Bound) (i : Instruction) : MachineM Flow := do
  let c ← Machine.cursor i.p1
  let cells ← Machine.keyContents i.p3 i.p4.toInt
  match ← Machine.seekKey i.p1 c { cells, info := c.info.getD default, tie := b.tie } with
  | none => Machine.abort Machine.codeCorrupt
  | some o => finishSeek b o i

/-- The order of the entry at a cursor against a key in registers; nothing if there is no entry. -/
def compareEntry (tie : Ordering) (i : Instruction) : MachineM (Option Ordering) := do
  let c ← Machine.cursor i.p1
  let cells ← Machine.keyContents i.p3 (max i.p4.toInt 1)
  let t ← Machine.treeOf c
  if c.position.isHere then
    let key : SearchKey := { cells, info := c.info.getD default, tie }
    return some ((key.compare (c.position.entry t).record).getD .eq)
  else return none

/-- Jumps if the entry at a cursor is on the side of a key that `b` says. -/
def indexCompare (b : Bound) (i : Instruction) : MachineM Flow := do
  let tie : Ordering := match b with | .le | .gt => .lt | .lt | .ge => .eq
  match ← compareEntry tie i with
  | none => return .fail Machine.codeCorrupt
  | some o => return .jumpIf (if b.isUpward then o != .lt else o == .lt) i.p2

def goToRow (key : Int) (i : Instruction) : MachineM Flow := do
  let found ← Machine.seekRow i.p1 (← Machine.cursor i.p1) key
  Machine.modifyCursor i.p1 fun c =>
    { c.stale with nullRow := false, deferred := none, seekResult := found.getD .eq }
  match found with
  | none => return .fail Machine.codeCorrupt
  | some o => return .jumpIf (o != .eq) i.p2

/-- Notes the row to go to when something is read. -/
def deferSeek (key : Int) (i : Instruction) : MachineM Unit :=
  Machine.modifyCursor i.p1 fun c => { c with deferred := some key }

/-- The row number at the end of the entry at a cursor; nothing without a row. -/
def indexRow (i : Int) : MachineM (Except Nat (Option Int)) := do
  if !(← Machine.restoreCursor i) then return .error Machine.codeCorrupt
  let c ← Machine.cursor i
  if c.nullRow then return .ok none
  else
    match Record.lastInt? (c.position.entry (← Machine.treeOf c)).record with
    | some n => return .ok (some n)
    | none => return .error Machine.codeCorrupt

end Step

namespace Tracked

def treeCursor (i : Int) : MachineM Cursor := do
  let c ← Machine.cursor i
  check c.hasTree
  return c

/-- A number that a row can have. -/
def rowKey (n : Int) : MachineM Int := if fitsWord n then return n else throw .integerRange

def seekOrdered (b : Bound) (i : Instruction) : MachineM Flow := do
  let c ← Machine.cursor i.p1
  check (i.p2 != 0)
  check (c.pseudo?.getD 0 == 0 && c.isOrdered && c.hasTree)
  Machine.modifyCursor i.p1 fun c => { c with nullRow := false }
  if c.isTable then
    let r ← register i.p3
    let f ← flags r
    if f.str && !f.int && !f.real then applyNumericAffinity r false
    let key ← intValue r
    if !f.int && !f.real then return .jump i.p2
    let x : Number ← if f.int then pure (.int key) else Bank.real r
    let b := if x.lt (.int key) then b.forLarger else if x.gt (.int key) then b.forSmaller else b
    let flow ← Step.seekTable b (← rowKey key) i
    check (0 < i.p2)
    return flow
  else
    check (i.p4.isInt && 0 < i.p4.toInt)
    expandBlob (← register i.p3)
    let flow ← Step.seekIndex b i
    check (0 < i.p2)
    return flow

def indexCompare (b : Bound) (i : Instruction) : MachineM Flow := do
  let c ← treeCursor i.p1
  check c.deferred.isNone
  check (i.p5 == 0 || i.p5 == 1)
  check i.p4.isInt
  discard (register i.p3)
  Step.indexCompare b i

def notExists (i : Instruction) : MachineM Flow := do
  let r ← register i.p3
  let c ← Machine.cursor i.p1
  check (c.pseudo?.getD 0 == 0 && c.hasTree)
  Step.goToRow (← int r) i

def seek (i : Instruction) : MachineM Unit := do
  discard (treeCursor i.p1)
  Machine.modifyCursor i.p1 fun c => { c with nullRow := false }
  Step.deferSeek (← rowKey (← intValue (← register i.p2))) i

def idxRowid (i : Instruction) : MachineM Flow := do
  let out ← register i.p2
  discard (treeCursor i.p1)
  match ← Step.indexRow i.p1 with
  | .error code => Machine.abort code
  | .ok (some n) =>
    setInt out n false
    setFlags out .onlyInt
    return .next
  | .ok none =>
    setFlags out .onlyNull
    return .next

end Tracked

namespace Direct

def seekOrdered (b : Bound) (i : Instruction) : MachineM Flow := do
  let c ← Machine.cursor i.p1
  Machine.modifyCursor i.p1 fun c => { c with nullRow := false }
  let r ← slot i.p3
  if c.isTable then
    if (← cell r).flags.str && !(← cell r).flags.numeric then
      modifyCell r (Cell.applyNumericAffinity false)
    let k ← cell r
    let key := k.intValue
    if k.flags.int then Step.seekTable b key i
    else if !k.flags.real then return .jump i.p2
    else
      let n := Double.ofInt key
      let b := if k.real.lt n then b.forLarger else if n.lt k.real then b.forSmaller else b
      Step.seekTable b key i
  else
    modifyCellWith r Cell.expandBlob
    Step.seekIndex b i

def indexCompare (b : Bound) (i : Instruction) : MachineM Flow := Step.indexCompare b i

def notExists (i : Instruction) : MachineM Flow := do
  Step.goToRow (← cell (← slot i.p3)).int i

def seek (i : Instruction) : MachineM Unit := do
  Machine.modifyCursor i.p1 fun c => { c with nullRow := false }
  Step.deferSeek (← cell (← slot i.p2)).intValue i

def idxRowid (i : Instruction) : MachineM Flow := do
  let out ← slot i.p2
  modifyCell out fun c => { c with flags := .onlyNull }
  match ← Step.indexRow i.p1 with
  | .error code => Machine.abort code
  | .ok (some n) =>
    modifyCell out fun c => { c with flags := .onlyInt, payload := intToWord n }
    return .next
  | .ok none => return .next

/-- What a search for an entry is used for. -/
inductive Lookup
  | found
  | notFound
  /-- A key without some value conflicts with nothing. -/
  | noConflict
  deriving Repr, DecidableEq, Inhabited

/-- The values to look for: registers, or the fields of a record in one register. -/
def lookupCells (info : KeyInfo) (i : Instruction) : BankM (List Content) := do
  if 0 < i.p4.toInt then
    for k in List.range i.p4.toInt.toNat do
      modifyCellWith (← slot (i.p3 + k)) Cell.expandBlob
    Machine.keyContents i.p3 i.p4.toInt
  else
    let r ← slot i.p3
    modifyCellWith r Cell.expandBlob
    return (SearchKey.ofRecord info (← cell r).bytes).cells

def lookup (l : Lookup) (i : Instruction) : MachineM Flow := do
  let c ← Machine.cursor i.p1
  let info := c.info.getD default
  let cells ← lookupCells info i
  let missing := l == .noConflict && cells.any (·.flags.null)
  match ← Machine.seekKey i.p1 c { cells, info } with
  | none => return .fail Machine.codeCorrupt
  | some o =>
    let exists_ := o == .eq
    Machine.modifyCursor i.p1 fun c =>
      { c.stale with seekResult := o, nullRow := !exists_, deferred := none }
    return .jumpIf (missing || (if l == .found then exists_ else !exists_)) i.p2

end Direct

end QueryMachine
