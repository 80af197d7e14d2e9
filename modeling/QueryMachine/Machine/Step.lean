import QueryMachine.Step.Arithmetic
import QueryMachine.Step.Call
import QueryMachine.Step.Change
import QueryMachine.Step.Comparison
import QueryMachine.Step.Control
import QueryMachine.Step.Output
import QueryMachine.Step.Register
import QueryMachine.Step.Schema
import QueryMachine.Step.Seek
import QueryMachine.Step.Sorter
import QueryMachine.Step.Text

/-!
The rule of every instruction. A family of instructions with two sets of rules follows the one that the
status of the machine says.
-/

namespace QueryMachine.Machine

open Bank

/-- Follows the tracked or the direct rule of a family. -/
def choose {α : Type} (f : Family) (tracked direct : MachineM α) : MachineM α := do
  if (← get).status.tracked f then tracked else direct

/-- Goes on after a rule that always falls through. -/
def thenNext (x : MachineM Unit) : MachineM Flow := do
  x
  return .next

/-- Forgets what is known about registers that a direct rule may have changed. -/
def mutating (registers : List Int) (x : MachineM Flow) : MachineM Flow := do
  let flow ← x
  for r in registers do forgetAt r
  return flow

def keySpan (i : Instruction) : List Int := Instruction.span i.p3 i.p4.toInt

/-- The registers that hold the values of a key, or the one that holds its record. -/
def lookupSpan (i : Instruction) : List Int :=
  Instruction.span i.p3 (if i.p4.toInt = 0 then 1 else i.p4.toInt)

def arithmetic (op : Arith) (i : Instruction) : MachineM Flow :=
  thenNext (choose .arithmetic (Tracked.arithmetic op i) (Direct.arithmetic op i))

def comparison (rel : Relation) (i : Instruction) : MachineM Flow :=
  choose .comparison (Tracked.comparison rel i) (Direct.comparison rel i)

/-- Vectors are compared and the jump is taken by the same set of rules. -/
def agreeing {α : Type} (f : Family) (tracked direct : MachineM α) : MachineM α := do
  let other := (← get).status.tracked f.partner
  choose f (do check other; tracked) (do check !other; direct)

def seekOrdered (b : Bound) (i : Instruction) : MachineM Flow :=
  mutating (keySpan i)
    (choose .seekOrdered (Tracked.seekOrdered b i) (Direct.seekOrdered b i))

def indexCompare (b : Bound) (i : Instruction) : MachineM Flow :=
  mutating (keySpan i)
    (choose .indexCompare (Tracked.indexCompare b i) (Direct.indexCompare b i))

def lookup (l : Direct.Lookup) (i : Instruction) : MachineM Flow :=
  mutating (lookupSpan i) (Direct.lookup l i)

def openTable (i : Instruction) : MachineM Flow :=
  choose .openTable (Tracked.openTable i) do
    if i.p5 != 0 then forgetAt i.p2
    Direct.openTable i

def makeRecord (i : Instruction) : MachineM Unit := do
  let format := (← get).format
  choose .makeRecord (Tracked.makeRecord format i) (Direct.makeRecord format i)

def step (pc : Int) (i : Instruction) : MachineM Flow :=
  match i.op with
  | .init => return Step.init i
  | .goto => return Step.goto i
  | .gosub => choose .gosub (Tracked.gosub pc i) (Direct.gosub pc i)
  | .returnTo => choose .returnTo (Tracked.returnTo i) (Direct.returnTo i)
  | .initCoroutine => choose .initCoroutine (Tracked.initCoroutine i) (Direct.initCoroutine i)
  | .yield => mutating [i.p1] (choose .yield (Tracked.yield pc i) (Direct.yield pc i))
  | .endCoroutine => choose .endCoroutine (Tracked.endCoroutine i) (Direct.endCoroutine i)
  | .isNull => choose .isNull (Tracked.isNull i) (Direct.isNull i)
  | .notNull => choose .notNull (Tracked.notNull i) (Direct.notNull i)
  | .once => choose .once (Tracked.once i) (Direct.once i)
  | .ifTrue => choose .condition (Tracked.condition false i) (Direct.condition false i)
  | .ifNot => choose .condition (Tracked.condition true i) (Direct.condition true i)
  | .ifPos => choose .ifPos (Tracked.ifPos i) (Direct.ifPos i)
  | .ifZero => choose .ifZero (Tracked.ifZero i) (Direct.ifZero i)
  | .integer => thenNext (choose .integer (Tracked.integer i) (pure ()))
  | .null => thenNext (choose .null (Tracked.null i) (pure ()))
  | .real => thenNext (choose .real (Tracked.real i) (Direct.real i))
  | .sCopy => thenNext (choose .sCopy (Tracked.sCopy i) (Direct.sCopy i))
  | .copy => thenNext (choose .copy (Tracked.copy i) (Direct.copy i))
  | .move => thenNext (choose .move (Tracked.move i) (Direct.move i))
  | .parameter =>
    thenNext (choose .parameter (Tracked.parameter i) (do Bank.forgetAll; Direct.parameter i))
  | .collSeq => thenNext (choose .collSeq (Tracked.collSeq i) (Direct.collSeq i))
  | .cast => thenNext (choose .ifPos (Tracked.cast i) (Direct.cast i))
  | .affinity => thenNext (choose .affinity (Tracked.affinity i) (Direct.affinity i))
  | .realAffinity => thenNext (choose .realAffinity (Tracked.realAffinity i) (Direct.realAffinity i))
  | .mustBeInt => choose .mustBeInt (Tracked.mustBeInt i) (Direct.mustBeInt i)
  | .add => arithmetic .add i
  | .subtract => arithmetic .subtract i
  | .multiply => arithmetic .multiply i
  | .divide => arithmetic .divide i
  | .remainder => arithmetic .remainder i
  | .eq => comparison .eq i
  | .ne => comparison .ne i
  | .lt => comparison .lt i
  | .le => comparison .le i
  | .gt => comparison .gt i
  | .ge => comparison .ge i
  | .compare => thenNext (agreeing .compare (Tracked.compare i) (Direct.compare i))
  | .jump => agreeing .jump (Tracked.jump i) (Direct.jump i)
  | .string => mutating [i.p2] (thenNext (Direct.string i.p1 i))
  | .string8 => mutating [i.p2] (thenNext (Direct.string8 pc i))
  | .blob => thenNext (Direct.blob i)
  | .concat => mutating [i.p1, i.p2, i.p3] (thenNext (Direct.concat i))
  | .resultRow => choose .resultRow (Tracked.resultRow pc i) (Direct.resultRow pc i)
  | .halt => Step.halt pc i
  | .makeRecord => thenNext (makeRecord i)
  | .column => Tracked.column i
  | .function =>
    choose .function (Tracked.function pc i) (Tracked.noteOutput i (Direct.function pc i))
  | .aggStep => choose .aggStep (Tracked.aggStep pc i) (Direct.aggStep pc i)
  | .aggFinal => choose .aggFinal (Tracked.aggFinal i) (Direct.aggFinal i)
  | .openRead | .openWrite => openTable i
  | .openEphemeral | .openAutoindex => thenNext (Direct.openEphemeral i)
  | .openPseudo => thenNext (Direct.openPseudo i)
  | .sorterOpen => thenNext (Direct.sorterOpen i)
  | .close => thenNext (Direct.close i)
  | .rewind | .sorterSort | .sort => Direct.rewind i
  | .next => choose .next (Tracked.next i) (Direct.next i)
  | .nextIfOpen => choose .nextIfOpen (Tracked.nextIfOpen i) (Direct.nextIfOpen i)
  | .nullRow => thenNext (Direct.nullRow i)
  | .rowid => mutating [i.p2] (Direct.rowid i)
  | .sequence =>
    mutating [i.p2] (thenNext (choose .sequence (Tracked.sequence i) (Direct.sequence i)))
  | .seekLT => seekOrdered .lt i
  | .seekLE => seekOrdered .le i
  | .seekGE => seekOrdered .ge i
  | .seekGT => seekOrdered .gt i
  | .idxLE => indexCompare .le i
  | .idxGT => indexCompare .gt i
  | .idxLT => indexCompare .lt i
  | .idxGE => indexCompare .ge i
  | .noConflict => lookup .noConflict i
  | .notFound => lookup .notFound i
  | .found => lookup .found i
  | .notExists => choose .notExists (Tracked.notExists i) (Direct.notExists i)
  | .seek => thenNext (choose .seek (Tracked.seek i) (Direct.seek i))
  | .idxRowid => choose .idxRowid (Tracked.idxRowid i) (Direct.idxRowid i)
  | .sorterInsert | .idxInsert => mutating [i.p2] (Direct.idxInsert i)
  | .insert => Direct.insertKey i
  | .insertInt => Direct.insertInt i
  | .delete => Direct.delete i
  | .newRowid => Direct.newRowid i
  | .rowKey | .rowData => mutating [i.p2] (thenNext (Direct.rowData i))
  | .createTable => thenNext (Direct.create true i)
  | .createIndex => thenNext (Direct.create false i)
  | .clear => Direct.clear i
  | .sorterData => mutating [i.p2] (thenNext (Direct.sorterData i))
  | .sorterNext => Direct.sorterNext i
  | .rowSetAdd => thenNext (Direct.rowSetAdd i)
  | .rowSetRead => Direct.rowSetRead i
  | .rowSetTest => Direct.rowSetTest i
  | .transaction => Direct.transaction i
  | .readCookie => thenNext (Direct.readCookie i)
  | .setCookie => thenNext (Direct.setCookie i)
  | .dropTable => thenNext (Direct.dropTable i)
  | .parseSchema => Direct.parseSchema i
  | .noop | .explain | .tableLock => return .next
  | op => throw (.unimplemented op.code)

end QueryMachine.Machine
