import Mathlib
import QueryMachine.Machine.Step
import QueryMachine.Proofs.Builtins
import QueryMachine.Proofs.Machines

/-!
Instructions that work on the cells, on cursors and on the database: they look neither at what is known
about the registers nor at the contexts of aggregates, nor at what is counted and traced, nor at where
the current row is and how the last two vectors compared.
-/

namespace QueryMachine

open Bank Veiled

/-- The instruction for a text with the length of the text as an operand. -/
def Instruction.measured (i : Instruction) : Instruction := { i with op := .string, p1 := (i.p4.text?.getD []).length }

namespace Machine

/-- The parts of a machine that rules on cells do not look at. -/
structure Cover where
  holder : Holder
  ledger : Ledger
  status : Status
  contexts : List (Nat × Context)
  trace : List TraceEntry
  shown : List View
  budget : Nat
  registers : Nat
  width : Nat
  result : Int
  hasRow : Bool
  order : Ordering
  directOrder : Ordering

def veil (v : Cover) (m : Machine) : Machine :=
  { m with
    bank := m.bank.veil v.holder v.ledger
    status := v.status
    contexts := v.contexts
    trace := v.trace
    shown := v.shown
    budget := v.budget
    registers := v.registers
    width := v.width
    result := v.result
    hasRow := v.hasRow
    order := v.order
    directOrder := v.directOrder }

/-- What a machine is made with and no instruction changes. -/
structure Outfit where
  cursors : Nat
  once : Nat
  expiring : BitVec 32
  draws : Nat → Nat
  clock : Int
  useFlagCache : Bool

def outfit (m : Machine) : Outfit :=
  ⟨m.cursors.size, m.once.size, m.expiring, m.draws, m.clock, m.status.useFlagCache⟩

instance : Veiled Machine :=
  ⟨Cover, veil, Extent × Array Instruction × Outfit, fun m => (m.bank.extent, m.program, m.outfit)⟩

end Machine

@[grind ←]
theorem Oblivious.lift {α : Type} {x : BankM α} (hx : Oblivious x) : Oblivious (liftM x : MachineM α) := by
  intro v m
  have hrun := hx (v.holder, v.ledger) m.bank
  cases h : x m.bank with
  | ok a b =>
    rw [h] at hrun
    rw [Machine.lift_of_ok h]
    exact ⟨Machine.lift_of_ok (m := m.veil v) hrun.1, congrArg (·, m.program, m.outfit) hrun.2⟩
  | error e b =>
    rw [h] at hrun
    rw [Machine.lift_of_error h]
    exact ⟨Machine.lift_of_error (m := m.veil v) hrun.1, congrArg (·, m.program, m.outfit) hrun.2⟩

namespace Machine

/-! Cursors. -/

@[grind ←]
theorem oblivious_cursor? (i : Int) : Oblivious (cursor? i) := by
  unfold cursor?
  split
  · exact .gets (fun _ _ => rfl) fun _ => .pure _
  · exact .pure _

@[grind ←]
theorem oblivious_setCursor (i : Int) (c : Option Cursor) : Oblivious (setCursor i c) := by
  refine .modify (fun v m => ?_) fun m => ?_
  · show (if 0 ≤ i then _ else _) = veil v (if 0 ≤ i then _ else _)
    split <;> rfl
  · show Veiled.build (if 0 ≤ i then _ else _) = Veiled.build m
    split
    · simp [Veiled.build, outfit]
    · rfl

@[grind ←]
theorem oblivious_cursor (i : Int) : Oblivious (cursor i) := (oblivious_cursor? i).bind fun _ => .expect _ _

@[grind ←]
theorem oblivious_modifyCursor (i : Int) (f : Cursor → Cursor) : Oblivious (modifyCursor i f) := by
  refine (oblivious_cursor? i).bind fun c => ?_
  cases c with
  | none => exact .pure _
  | some c => exact oblivious_setCursor i _

@[grind ←]
theorem oblivious_treeOf (c : Cursor) : Oblivious (treeOf c) := .gets (fun _ _ => rfl) fun _ => .pure _

@[grind ←]
theorem oblivious_moveCursor (i : Int) (c : Cursor) (p : Position) : Oblivious (moveCursor i c p) :=
  oblivious_setCursor i _

@[grind ←]
theorem oblivious_seekCursor (i : Int) (c : Cursor) (f : Tree → Position → Option Ordering × Position) :
    Oblivious (seekCursor i c f) := by
  refine .gets (fun _ _ => rfl) fun m => ?_
  cases m.treeOf? c with
  | none => exact (oblivious_moveCursor i c _).bind fun _ => .pure _
  | some t => exact (oblivious_moveCursor i c _).bind fun _ => .pure _

@[grind ←]
theorem oblivious_seekRow (i : Int) (c : Cursor) (key : Int) : Oblivious (seekRow i c key) :=
  oblivious_seekCursor i c _

@[grind ←]
theorem oblivious_seekKey (i : Int) (c : Cursor) (k : SearchKey) : Oblivious (seekKey i c k) :=
  oblivious_seekCursor i c _

@[grind ←]
theorem oblivious_restoreCursor (i : Int) : Oblivious (restoreCursor i) := by
  grind [restoreCursor]

@[grind ←]
theorem oblivious_keepOthers (root : Int) (except : Option Int) : Oblivious (keepOthers root except) := by
  refine .modify (fun v m => ?_) fun m => ?_
  · have hdatabase : (Veiled.veil v m).database = m.database := rfl
    simp only [hdatabase]
    cases m.database.tree? root <;> rfl
  · cases m.database.tree? root
    · rfl
    · simp [Veiled.build, outfit]

@[grind ←]
theorem oblivious_changeTree (i : Int) (c : Cursor) (f : SpaceM (Tree × Position)) :
    Oblivious (changeTree i c f) := by
  unfold changeTree
  cases c.source with
  | main root =>
    exact .gets (fun _ _ => rfl) fun m => (oblivious_moveCursor i c _).bind fun _ =>
      .modify (fun _ _ => rfl) fun _ => rfl
  | own t space => exact oblivious_setCursor i _
  | register r => exact .pure _
  | sorter s => exact .pure _

@[grind ←]
theorem oblivious_announceChange (i : Int) (c : Cursor) : Oblivious (announceChange i c) := by
  unfold announceChange
  split
  · exact oblivious_keepOthers _ _
  · exact .pure _

@[grind ←]
theorem oblivious_keyContents (p3 n : Int) : Oblivious (keyContents p3 n) :=
  .mapM fun _ _ => (oblivious_slot _).bind fun r => (oblivious_cell r).bind fun _ => .pure _

/-! Ends of runs. -/

@[grind ←]
theorem oblivious_halt (undo : Bool) : Oblivious (Machine.halt undo) :=
  .of_run (fun _ => ⟨⟩) _ (fun _ => rfl) (fun _ _ => rfl) (fun _ _ => rfl) fun m => by
    simp [Veiled.build, outfit, extent]

@[grind ←]
theorem oblivious_abort (code : Nat) : Oblivious (abort code) := by
  refine .bind (.modify (fun _ _ => rfl) fun _ => rfl) fun _ => ?_
  exact (oblivious_halt _).bind fun _ => .pure _

end Machine

namespace Step

@[grind ←]
theorem oblivious_halt (pc : Int) (i : Instruction) : Oblivious (Step.halt pc i) := by
  refine .bind (.modify (fun _ _ => rfl) fun _ => rfl) fun _ => ?_
  exact (Machine.oblivious_halt _).bind fun _ => .pure _

/-! Searches. -/

@[grind ←]
theorem oblivious_moveOn (i : Int) (upward : Bool) : Oblivious (moveOn i upward) := by
  grind [moveOn]

@[grind ←]
theorem oblivious_finishSeek (b : Bound) (o : Ordering) (i : Instruction) :
    Oblivious (finishSeek b o i) := by
  grind [finishSeek]

@[grind ←]
theorem oblivious_seekTable (b : Bound) (key : Int) (i : Instruction) :
    Oblivious (seekTable b key i) := by
  grind [seekTable]

@[grind ←]
theorem oblivious_seekIndex (b : Bound) (i : Instruction) : Oblivious (seekIndex b i) := by
  grind [seekIndex]

@[grind ←]
theorem oblivious_compareEntry (tie : Ordering) (i : Instruction) :
    Oblivious (compareEntry tie i) := by
  grind [compareEntry]

@[grind ←]
theorem oblivious_indexCompare (b : Bound) (i : Instruction) : Oblivious (Step.indexCompare b i) := by
  refine (oblivious_compareEntry _ i).bind fun o => ?_
  cases o <;> exact .pure _

@[grind ←]
theorem oblivious_goToRow (key : Int) (i : Instruction) : Oblivious (goToRow key i) := by
  grind [goToRow]

@[grind ←]
theorem oblivious_deferSeek (key : Int) (i : Instruction) : Oblivious (deferSeek key i) :=
  Machine.oblivious_modifyCursor _ _

@[grind ←]
theorem oblivious_indexRow (i : Int) : Oblivious (indexRow i) := by
  grind [indexRow]

end Step

namespace Direct

open Machine

variable (i : Instruction)

@[grind ←]
theorem oblivious_lookupCells (info : KeyInfo) : Oblivious (lookupCells info i) := by
  unfold lookupCells
  split
  · refine .bind (.forIn fun k _ _ => ?_) fun _ => oblivious_keyContents _ _
    exact (oblivious_slot _).bind fun r => (oblivious_modifyCellWith r _).bind fun _ => .pure _
  · exact (oblivious_slot _).bind fun r => (oblivious_modifyCellWith r _).bind fun _ =>
      (oblivious_cell r).bind fun _ => .pure _

@[grind ←]
theorem oblivious_lookup (l : Lookup) :
    Oblivious (Direct.lookup l i) := by
  grind [Direct.lookup]

/-! Cursors. -/

theorem oblivious_openTable : Oblivious (Direct.openTable i) := by
  have hopened (root : Int) : Oblivious (openTable.opened i root) :=
    (oblivious_setCursor _ _).bind fun _ => .pure _
  have hroot : Oblivious (do
      if i.option 1 then
        modifyCell (← slot i.p2) Cell.integerify
        let root := wrapHalf (← cell (← slot i.p2)).int
        if root < 2 then Machine.abort Machine.codeCorrupt else openTable.opened i root
      else openTable.opened i i.p2 : MachineM Flow) := by
    split
    · refine (oblivious_slot _).lift.bind fun r => (oblivious_modifyCell _ _).lift.bind fun _ => ?_
      refine (oblivious_slot _).lift.bind fun r => (oblivious_cell r).lift.bind fun c => ?_
      exact .ite (oblivious_abort _) (hopened _)
    · exact hopened _
  refine .gets (fun _ _ => rfl) fun m => .ite (.pure _) (.ite ?_ hroot)
  exact .bind (.modify (fun _ _ => rfl) fun _ => rfl) fun _ => hroot

theorem oblivious_openEphemeral : Oblivious (openEphemeral i) := oblivious_setCursor _ _

theorem oblivious_openPseudo : Oblivious (openPseudo i) := oblivious_setCursor _ _

theorem oblivious_sorterOpen : Oblivious (sorterOpen i) := oblivious_setCursor _ _

theorem oblivious_close : Oblivious (close i) := oblivious_setCursor _ _

theorem oblivious_rewind : Oblivious (rewind i) := by
  refine (oblivious_cursor i.p1).bind fun c => ?_
  split
  · grind
  · refine .gets (fun _ _ => rfl) fun m => ?_
    grind

@[grind ←]
theorem oblivious_next : Oblivious (Direct.next i) := by grind [Direct.next]

theorem oblivious_nextIfOpen : Oblivious (Direct.nextIfOpen i) := by
  grind [Direct.nextIfOpen]

theorem oblivious_nullRow : Oblivious (nullRow i) := oblivious_modifyCursor _ _

theorem oblivious_rowid : Oblivious (rowid i) := by
  refine (oblivious_slot _).lift.bind fun out => ?_
  have hwrite (f : Cell → Cell) : Oblivious (liftM (modifyCell out f) : MachineM Unit) :=
    (oblivious_modifyCell _ f).lift
  refine (hwrite _).bind fun _ => (oblivious_cursor i.p1).bind fun c => ?_
  split
  · exact (hwrite _).bind fun _ => .pure _
  split
  · exact (hwrite _).bind fun _ => .pure _
  · refine (oblivious_restoreCursor i.p1).bind fun ok => ?_
    split
    · exact oblivious_abort _
    · refine (oblivious_cursor i.p1).bind fun c => ?_
      split
      · exact (hwrite _).bind fun _ => .pure _
      · refine (oblivious_treeOf c).bind fun t => ?_
        exact (oblivious_moveCursor _ _ _).bind fun _ => (hwrite _).bind fun _ => .pure _

theorem oblivious_sequence : Oblivious (Direct.sequence i) := by
  grind [Direct.sequence]

/-! Changes of trees. -/

@[grind ←]
theorem oblivious_insertEntry (j : Int) (e : Entry) (known : Ordering) (fromLast : Bool) :
    Oblivious (insertEntry j e known fromLast) := by
  refine (oblivious_cursor j).bind fun c => (oblivious_announceChange j c).bind fun _ => ?_
  refine .gets (fun _ _ => rfl) fun m => ?_
  grind

@[grind ←]
theorem oblivious_knownOrder : Oblivious (knownOrder i) := by grind [knownOrder]

theorem oblivious_idxInsert : Oblivious (idxInsert i) := by
  refine (oblivious_slot _).lift.bind fun r => ?_
  refine (oblivious_modifyCellWith _ _).lift.bind fun _ => (oblivious_cursor i.p1).bind fun c => ?_
  split <;> grind

@[grind ←]
theorem oblivious_insert (key : Int) : Oblivious (Direct.insert key i) := by
  refine (oblivious_slot i.p2).lift.bind fun r => ?_
  have hnote : Oblivious (modify fun m => { m with lastRowid := key } : MachineM PUnit) :=
    .modify (fun _ _ => rfl) fun _ => rfl
  have hrest : Oblivious (do
      let c ← cell r
      let zeros := if c.flags.zero then c.zeros.toNat else 0
      let e : Entry := { key, record := c.bytes ++ List.replicate zeros 0 }
      let flow ← insertEntry i.p1 e (← knownOrder i) (i.option 3)
      Machine.modifyCursor i.p1 fun c => { c.stale with deferred := none }
      return flow : MachineM Flow) := by
    grind
  have hclear : Oblivious (do
      if (← cell r).flags.null then modifyCell r fun c => { c with data := none, size := 0 }
      let c ← cell r
      let zeros := if c.flags.zero then c.zeros.toNat else 0
      let e : Entry := { key, record := c.bytes ++ List.replicate zeros 0 }
      let flow ← insertEntry i.p1 e (← knownOrder i) (i.option 3)
      Machine.modifyCursor i.p1 fun c => { c.stale with deferred := none }
      return flow : MachineM Flow) := by
    refine (oblivious_cell r).lift.bind fun c => ?_
    split
    · exact (oblivious_modifyCell r _).lift.bind fun _ => hrest
    · exact hrest
  split
  · exact hnote.bind fun _ => hclear
  · exact hclear

theorem oblivious_insertKey : Oblivious (insertKey i) := by grind [insertKey]

theorem oblivious_insertInt : Oblivious (insertInt i) := oblivious_insert i _

theorem oblivious_delete : Oblivious (delete i) := by grind [delete]

@[grind ←]
theorem oblivious_drawRowid : Oblivious drawRowid :=
  .of_run (fun m => (m.draws m.drawn % 4611686018427387904 + 1 : Nat)) (fun m => { m with drawn := m.drawn + 1 })
    (fun _ => rfl) (fun _ _ => rfl) (fun _ _ => rfl) fun _ => rfl

@[grind ←]
theorem oblivious_drawFree (j : Int) (fuel : Nat) : Oblivious (drawFree j fuel) := by
  induction fuel with
  | zero => exact .pure _
  | succ fuel ih => grind [drawFree]

@[grind ←]
theorem oblivious_nextRowid (j : Int) : Oblivious (nextRowid j) := by
  refine (oblivious_cursor j).bind fun c => ?_
  refine .gets (fun _ _ => rfl) fun m => ?_
  grind

@[grind ←]
theorem oblivious_aboveCounter (n : Int) : Oblivious (aboveCounter i n) := by
  grind [aboveCounter]

theorem oblivious_rowidFrom (first : Except Nat Int) : Oblivious (do
    match first with
    | .error code => return .error code
    | .ok v =>
      match ← aboveCounter i v with
      | .error code => return .error code
      | .ok v => if (← cursor i.p1).randomRowid then drawFree i.p1 100 else return .ok v) := by
  cases first with
  | error code => exact .pure _
  | ok n =>
    refine (oblivious_aboveCounter i n).bind fun w => ?_
    cases w <;> grind

@[grind ←]
theorem oblivious_freeRowid : Oblivious (freeRowid i) := by
  refine (oblivious_cursor i.p1).bind fun c => ?_
  split
  · exact oblivious_rowidFrom i (.ok 0)
  · exact (oblivious_nextRowid i.p1).bind (oblivious_rowidFrom i)

theorem oblivious_newRowid : Oblivious (newRowid i) := by
  refine (oblivious_freeRowid i).bind fun w => ?_
  cases w with
  | error code => exact oblivious_abort code
  | ok n =>
    refine (oblivious_modifyCursor _ _).bind fun _ => (oblivious_slot _).lift.bind fun r => ?_
    exact (oblivious_modifyCell _ _).lift.bind fun _ => .pure _

theorem oblivious_rowData : Oblivious (rowData i) := by
  grind [rowData]

theorem oblivious_create (isTable : Bool) : Oblivious (create isTable i) := by
  refine .bind (.of_run (fun m => (Database.addTree isTable m.database).1)
    (fun m => { m with database := (Database.addTree isTable m.database).2 })
    (fun _ => rfl) (fun _ _ => rfl) (fun _ _ => rfl) fun _ => rfl) fun root => ?_
  exact (oblivious_slot _).lift.bind fun r => (oblivious_modifyCell _ _).lift

theorem oblivious_clear : Oblivious (clear i) := by
  refine .gets (fun _ _ => rfl) fun m => ?_
  cases m.database.tree? i.p1 with
  | none => exact .pure _
  | some t =>
    refine (oblivious_keepOthers _ _).bind fun _ => .bind (.modify (fun _ _ => rfl) fun _ => rfl) fun _ => ?_
    refine .ite ((oblivious_slot _).lift.bind fun r => ?_) (.pure _)
    exact (oblivious_modifyCell _ _).lift.bind fun _ => .pure _

/-! Sorters and sets of row numbers. -/

theorem oblivious_sorterData : Oblivious (sorterData i) := by
  grind [sorterData]

theorem oblivious_sorterNext : Oblivious (sorterNext i) := by
  grind [sorterNext]

@[grind ←]
theorem oblivious_openRowSet (r : Nat) : Oblivious (openRowSet r) := by
  grind [openRowSet]

@[grind ←]
theorem oblivious_setRowSet (r : Nat) (s : RowSet) : Oblivious (setRowSet r s) := oblivious_modifyCell r _

theorem oblivious_rowSetAdd : Oblivious (rowSetAdd i) := by
  grind [rowSetAdd]

theorem oblivious_rowSetNext (r : Nat) (next : Option Int × RowSet) :
    Oblivious (do
      match next with
      | (some n, s) =>
        setRowSet r s
        modifyCell (← slot i.p3) (Cell.setInt n)
        return .next
      | (none, _) =>
        modifyCell r Cell.setNull
        return .jump i.p2 : BankM Flow) := by
  rcases next with ⟨_ | n, s⟩
  · exact (oblivious_modifyCell _ _).bind fun _ => .pure _
  · exact (oblivious_setRowSet r _).bind fun _ => (oblivious_slot _).bind fun q =>
      (oblivious_modifyCell q _).bind fun _ => .pure _

theorem oblivious_rowSetRead : Oblivious (rowSetRead i) :=
  (oblivious_slot _).bind fun r => (oblivious_cell r).bind fun _ => oblivious_rowSetNext i r _

theorem oblivious_rowSetTest : Oblivious (rowSetTest i) := by
  grind [rowSetTest]

/-! Texts. -/

theorem oblivious_string (size : Int) : Oblivious (string size i) := by
  grind [string]

def measured (pc : Int) (i : Instruction) (program : Array Instruction) : Array Instruction :=
  match wrapIndex? program.size pc with
  | some k => program.setIfInBounds k i.measured
  | none => program

theorem string8_eq (pc : Int) (i : Instruction) : string8 pc i = (do
    modify fun m => { m with program := measured pc i m.program }
    string (i.p4.text?.getD []).length i : MachineM Unit) := by
  refine congrArg₂ bind (congrArg modify (funext fun m => ?_)) rfl
  unfold measured
  cases wrapIndex? m.program.size pc <;> rfl

theorem oblivious_blob : Oblivious (blob i) := by
  grind [blob]

theorem oblivious_concat :
    Oblivious (concat i) := by
  refine (oblivious_slot _).bind fun r1 => (oblivious_slot _).bind fun r2 => (oblivious_slot _).bind fun out => ?_
  refine (oblivious_cell r1).bind fun a => (oblivious_cell r2).bind fun b => ?_
  refine .ite (oblivious_modifyCell _ _) ?_
  refine (oblivious_modifyCellWith _ _).bind fun _ => (oblivious_modifyCellWith _ _).bind fun _ => ?_
  refine (oblivious_cell r2).bind fun _ => (oblivious_cell r1).bind fun _ => ?_
  refine (oblivious_modifyCellWith _ _).bind fun _ => (oblivious_cell r1).bind fun _ => ?_
  exact (oblivious_cell out).bind fun _ => oblivious_putCell _ _

theorem oblivious_mustBeInt : Oblivious (Direct.mustBeInt i) := by
  refine (oblivious_slot _).lift.bind fun r => ?_
  have hrest : Oblivious (do
      if (← cell r).flags.int then
        modifyCell r fun c => { c with flags := c.flags.retype .onlyInt }
        return .next
      else if i.p2 = 0 then Machine.abort Machine.codeMismatch
      else return .jump i.p2 : MachineM Flow) := by
    refine (oblivious_cell r).lift.bind fun c => ?_
    split
    · exact (oblivious_modifyCell _ _).lift.bind fun _ => .pure _
    · split
      · exact oblivious_abort _
      · exact .pure _
  refine (oblivious_cell r).lift.bind fun c => .ite ?_ hrest
  exact (oblivious_modifyCellWith _ _).lift.bind fun _ => hrest

/-! Columns. -/

@[grind ←]
theorem oblivious_arrive (j : Int) : Oblivious (arrive j) := by
  refine (oblivious_cursor j).bind fun c => ?_
  split
  · refine (oblivious_seekRow _ _ _).bind fun o => ?_
    split <;> grind
  · grind

@[grind ←]
theorem oblivious_openReader (c : Cursor) : Oblivious (openReader c) := by
  refine .gets (fun _ _ => rfl) fun m => ?_
  split
  · refine (oblivious_slot _).lift.bind fun r => (oblivious_cell r).lift.bind fun d => ?_
    split <;> exact .pure _
  · split
    · exact .pure _
    · split
      · exact .pure _
      · exact (oblivious_treeOf c).bind fun _ => .pure _

theorem oblivious_column : Oblivious (Direct.column i) := by
  refine (oblivious_arrive i.p1).bind fun ok => ?_
  split
  · exact oblivious_abort _
  refine (oblivious_slot _).lift.bind fun out => ?_
  have hwrite (f : Cell → Cell) : Oblivious (liftM (modifyCell out f) : MachineM Unit) :=
    (oblivious_modifyCell _ f).lift
  refine (oblivious_cursor i.p1).bind fun c => (oblivious_openReader c).bind fun w => ?_
  rcases w with _ | ⟨reader, c⟩
  · exact (hwrite _).bind fun _ => .pure _
  refine (oblivious_setCursor _ _).bind fun _ => ?_
  split
  · exact .pure _
  refine (oblivious_setCursor _ _).bind fun _ => ?_
  split
  · exact .pure _
  split
  · exact (hwrite _).bind fun _ => .pure _
  · exact (oblivious_modifyCellWith _ _).lift.bind fun _ => .pure _

/-! Functions and aggregates. -/

@[grind ←]
theorem oblivious_failWith (code : Nat) (message : Bytes) : Oblivious (failWith code message) :=
  .bind (.modify (fun _ _ => rfl) fun _ => rfl) fun _ => .pure _

@[grind ←]
theorem oblivious_collationBefore (pc : Int) : Oblivious (collationBefore pc) :=
  .gets (fun _ _ => rfl) fun _ => .pure _

@[grind ←]
theorem oblivious_surroundings (pc : Int) : Oblivious (surroundings pc) :=
  (oblivious_collationBefore pc).bind fun _ => .gets (fun _ _ => rfl) fun _ => .pure _

theorem oblivious_slots (rs : List Int) : Oblivious (rs.mapM fun r => (onBank (slot r) : MachineM Nat)) :=
  .mapM fun r _ => (oblivious_slot r).lift

theorem oblivious_function (pc : Int) : Oblivious (Direct.function pc i) := by
  refine (oblivious_slot _).lift.bind fun out => (oblivious_slots _).bind fun args => ?_
  refine .bind (.forIn fun r _ _ => ?_) fun _ => ?_
  · refine (oblivious_cell r).lift.bind fun c => .ite ?_ (.pure _)
    exact (oblivious_modifyCellWith r _).lift.bind fun _ => .pure _
  refine (oblivious_modifyCell _ _).lift.bind fun _ => ?_
  dsimp only
  split
  · exact .pure _
  · rename_i f _
    refine (oblivious_surroundings pc).bind fun around => ?_
    refine (f.oblivious_call around args).lift.bind fun outcome => ?_
    refine .bind (.modify (fun _ _ => rfl) fun _ => rfl) fun _ => ?_
    refine (oblivious_modifyCellWith _ _).lift.bind fun _ => ?_
    split
    · exact oblivious_failWith _ _
    · exact .pure _

theorem oblivious_aggStep (pc : Int) : Oblivious (Direct.aggStep pc i) := by
  refine (oblivious_slots _).bind fun args => (oblivious_slot _).lift.bind fun out => ?_
  dsimp only
  split
  · exact .pure _
  · rename_i f _
    refine (oblivious_collationBefore pc).bind fun coll => ?_
    refine (f.oblivious_step coll args out).lift.bind fun passed => .ite ?_ (.pure _)
    refine .gets (fun _ _ => rfl) fun m => .ite ?_ (.pure _)
    refine (oblivious_slot _).lift.bind fun r => ?_
    exact (oblivious_modifyCell _ _).lift.bind fun _ => .pure _

theorem oblivious_aggFinal : Oblivious (Direct.aggFinal i) := by
  refine (oblivious_slot _).lift.bind fun out => ?_
  dsimp only
  split
  · exact .pure _
  · refine (oblivious_cell out).lift.bind fun c => ?_
    refine oblivious_freshName.lift.bind fun name => ?_
    refine (oblivious_setCell _ _).lift.bind fun _ => ?_
    split
    · exact oblivious_failWith _ _
    · exact .pure _

/-! Transactions and descriptions. -/

theorem oblivious_transaction : Oblivious (transaction i) := by
  refine .bind (.modify (fun _ _ => rfl) fun _ => rfl) fun _ => .gets (fun _ _ => rfl) fun m => ?_
  split
  · exact .bind (.modify (fun _ _ => rfl) fun _ => rfl) fun _ => .pure _
  · exact .pure _

theorem oblivious_readCookie : Oblivious (readCookie i) :=
  .gets (fun _ _ => rfl) fun _ => (oblivious_slot _).lift.bind fun _ => (oblivious_modifyCell _ _).lift

theorem oblivious_setCookie : Oblivious (setCookie i) :=
  (oblivious_slot _).lift.bind fun r => (oblivious_modifyCell _ _).lift.bind fun _ =>
    (oblivious_cell r).lift.bind fun _ => .modify (fun _ _ => rfl) fun _ => rfl

theorem oblivious_dropTable : Oblivious (dropTable i) :=
  .modify (fun _ _ => rfl) fun _ => rfl

theorem oblivious_parseSchema : Oblivious (parseSchema i) := by
  refine .gets (fun _ _ => rfl) fun m => ?_
  split
  · split
    · exact .bind (.modify (fun _ _ => rfl) fun _ => rfl) fun _ => .pure _
    · exact .bind (.modify (fun _ _ => rfl) fun _ => rfl) fun _ => .pure _
  · exact .bind (.modify (fun _ _ => rfl) fun _ => rfl) fun _ => .pure _

end Direct

namespace Machine

/-- What the tracked rule does with the number in a register whose marks have been looked at. -/
def trackedSearch (b : Bound) (i : Instruction) (r : Nat) (f : Flags) : MachineM Flow := do
  let key ← Bank.intValue r
  if !f.int && !f.real then return .jump i.p2
  let x : Number ← if f.int then pure (.int key) else Bank.real r
  let b := if x.lt (.int key) then b.forLarger else if x.gt (.int key) then b.forSmaller else b
  let flow ← Step.seekTable b (← Tracked.rowKey key) i
  check (0 < i.p2)
  return flow

/-- What the direct rule does with a key. -/
def directSearch (b : Bound) (i : Instruction) (k : Cell) : MachineM Flow :=
  if k.flags.int then Step.seekTable b k.intValue i
  else if !k.flags.real then return .jump i.p2
  else
    Step.seekTable (if k.real.lt (.ofInt k.intValue) then b.forLarger
      else if (Double.ofInt k.intValue).lt k.real then b.forSmaller else b) k.intValue i

end Machine

/-! Rules that have a tracked counterpart. -/

namespace Direct

open Machine

variable (i : Instruction) (pc : Int)

theorem oblivious_gosub : Oblivious (Direct.gosub pc i) := by grind [Direct.gosub]

theorem oblivious_returnTo : Oblivious (Direct.returnTo i) := by grind [Direct.returnTo]

theorem oblivious_initCoroutine : Oblivious (Direct.initCoroutine i) := by grind [Direct.initCoroutine]

theorem oblivious_yield : Oblivious (Direct.yield pc i) := by grind [Direct.yield]

theorem oblivious_isNull : Oblivious (Direct.isNull i) := by grind [Direct.isNull]

theorem oblivious_notNull : Oblivious (Direct.notNull i) := by grind [Direct.notNull]

theorem oblivious_condition (negate : Bool) : Oblivious (Direct.condition negate i) := by grind [Direct.condition]

theorem oblivious_ifPos : Oblivious (Direct.ifPos i) := by grind [Direct.ifPos]

theorem oblivious_ifZero : Oblivious (Direct.ifZero i) := by grind [Direct.ifZero]

theorem oblivious_real : Oblivious (Direct.real i) := by grind [Direct.real]

theorem oblivious_borrow (source target : Nat) : Oblivious (borrow source target) :=
  (oblivious_modifyCell _ _).bind fun _ => (oblivious_cell source).bind fun _ => oblivious_modifyCell _ _

theorem oblivious_sCopy : Oblivious (Direct.sCopy i) :=
  (oblivious_slot _).bind fun _ => (oblivious_slot _).bind fun _ => oblivious_borrow _ _

theorem oblivious_copy : Oblivious (Direct.copy i) := by
  refine .bind (.forIn fun k _ _ => ?_) fun _ => .pure _
  refine (oblivious_slot _).bind fun s => (oblivious_slot _).bind fun t => .bind ?_ fun _ => .pure _
  refine (oblivious_borrow s t).bind fun _ => (oblivious_cell t).bind fun c => ?_
  exact .ite (oblivious_modifyCellWith _ _) (.pure _)

theorem oblivious_move : Oblivious (Direct.move i) := by
  refine .bind (.forIn fun k _ _ => ?_) fun _ => .pure _
  refine (oblivious_slot _).bind fun s => (oblivious_cell s).bind fun c => (oblivious_slot _).bind fun t => ?_
  exact (oblivious_setCell _ _).bind fun _ => (oblivious_setCell _ _).bind fun _ => .pure _

theorem oblivious_parameter : Oblivious (Direct.parameter i) :=
  .gets (fun _ _ => rfl) fun _ => (oblivious_cell _).bind fun _ => (oblivious_slot _).bind fun _ =>
    oblivious_modifyCell _ _

theorem oblivious_collSeq : Oblivious (Direct.collSeq i) := by grind [Direct.collSeq]

theorem oblivious_cast : Oblivious (Direct.cast i) := by grind [Direct.cast]

theorem oblivious_affinity : Oblivious (Direct.affinity i) := by
  refine .bind (.forIn fun a _ _ => ?_) fun _ => .pure _
  exact (oblivious_slot _).bind fun _ => (oblivious_modifyCellWith _ _).bind fun _ => .pure _

theorem oblivious_realAffinity : Oblivious (Direct.realAffinity i) := by grind [Direct.realAffinity]

theorem oblivious_arithmetic (op : Arith) : Oblivious (Direct.arithmetic op i) := by
  refine (oblivious_slot _).bind fun left => (oblivious_cell left).bind fun a => (oblivious_setCell left _).bind fun _ =>
    (oblivious_slot _).bind fun right => (oblivious_cell right).bind fun b => (oblivious_setCell right _).bind fun _ => ?_
  refine (oblivious_slot _).bind fun out => (oblivious_cell left).bind fun a => (oblivious_cell right).bind fun b => ?_
  refine .ite (oblivious_modifyCell _ _) (.ite ?_ (oblivious_modifyCell _ _))
  split <;> exact oblivious_modifyCell _ _

@[grind ←]
theorem oblivious_decide (o : CompareOptions) (holds : Bool) : Oblivious (Direct.decide o i holds) := by
  grind [Direct.decide]

@[grind ←]
theorem oblivious_widen (r : Nat) (before : Flags) : Oblivious (Direct.widen r before) := by grind [Direct.widen]

theorem oblivious_comparison (rel : Relation) : Oblivious (Direct.comparison rel i) := by
  refine (oblivious_slot _).bind fun r1 => (oblivious_slot _).bind fun r3 => (oblivious_cell r1).bind fun c1 => ?_
  refine (oblivious_cell r3).bind fun c3 => .ite (.ite ?_ (.ite ?_ (.pure _))) ?_
  · grind
  · grind
  · refine (oblivious_modifyCellWith r1 _).bind fun _ => (oblivious_modifyCellWith r3 _).bind fun _ => ?_
    refine (oblivious_widen r1 _).bind fun _ => (oblivious_widen r3 _).bind fun _ => ?_
    grind

theorem oblivious_compareVectors (k : KeyInfo) (p1 p2 : Int) (n c : Nat) :
    Oblivious (Direct.compareVectors k p1 p2 n c) := by
  induction n generalizing c with
  | zero => exact .pure _
  | succ n ih => grind [Direct.compareVectors]

theorem oblivious_fields (format : Int) (rs : List Int) (data : Nat) (after : List Field) (zeros : Nat) :
    Oblivious (Direct.fields format rs data after zeros) := by
  induction rs generalizing data after zeros with
  | nil => exact .pure _
  | cons r rs ih => grind [Direct.fields]

theorem oblivious_makeRecord (format : Int) : Oblivious (Direct.makeRecord format i) := by
  refine .bind (.forIn fun a _ _ => ?_) fun _ => (oblivious_fields format _ _ _ _).bind fun w => ?_
  · exact (oblivious_slot _).bind fun _ => (oblivious_modifyCellWith _ _).bind fun _ => .pure _
  · exact (oblivious_slot _).bind fun _ => oblivious_modifyCellWith _ _

theorem oblivious_seekOrdered (b : Bound) : Oblivious (Direct.seekOrdered b i) := by
  have hcell (r : Nat) : Oblivious (liftM (cell r) : MachineM Cell) := (oblivious_cell r).lift
  have hkey (k : Cell) : Oblivious (Machine.directSearch b i k) :=
    .ite (Step.oblivious_seekTable _ _ i) (.ite (.pure _) (Step.oblivious_seekTable _ _ i))
  refine (oblivious_cursor _).bind fun c => (oblivious_modifyCursor _ _).bind fun _ => ?_
  refine (oblivious_slot _).lift.bind fun r => .ite ?_ ?_
  · refine (hcell r).bind fun _ => (hcell r).bind fun _ => .ite ?_ ((hcell r).bind hkey)
    exact (oblivious_modifyCell _ _).lift.bind fun _ => (hcell r).bind hkey
  · exact (oblivious_modifyCellWith _ _).lift.bind fun _ => Step.oblivious_seekIndex b i

theorem oblivious_notExists : Oblivious (Direct.notExists i) := by grind [Direct.notExists]

theorem oblivious_seek : Oblivious (Direct.seek i) := by grind [Direct.seek, Step.deferSeek]

theorem oblivious_idxRowid : Oblivious (Direct.idxRowid i) := by
  refine (oblivious_slot _).lift.bind fun out => ?_
  refine (oblivious_modifyCell _ _).lift.bind fun _ => (Step.oblivious_indexRow _).bind fun w => ?_
  rcases w with code | _ | n
  · exact oblivious_abort code
  · exact .pure _
  · exact (oblivious_modifyCell _ _).lift.bind fun _ => .pure _

theorem oblivious_endCoroutine : Oblivious (Direct.endCoroutine i) :=
  (oblivious_slot _).lift.bind fun r => (oblivious_cell r).lift.bind fun _ => .gets (fun _ _ => rfl) fun _ =>
    (oblivious_modifyCell r _).lift.bind fun _ => .pure _

theorem oblivious_once : Oblivious (Direct.once i) := by
  have hrun (m : Machine) : Direct.once i m = .ok (if m.once.getD i.p1.toNat false then .jump i.p2 else .next)
      (if m.once.getD i.p1.toNat false then m else { m with once := m.once.setIfInBounds i.p1.toNat true }) := by
    rw [Direct.once, bind_of_ok get_run]
    split <;> rfl
  refine .of_run _ _ hrun (fun _ _ => rfl) (fun v m => ?_) fun m => ?_
  · show (if m.once.getD i.p1.toNat false then _ else _) = _
    split <;> rfl
  · split
    · rfl
    · simp [Veiled.build, outfit]

end Direct

namespace Tracked

open Machine

variable (i : Instruction)

theorem oblivious_once : Oblivious (Tracked.once i) := by
  have honce : Tracked.once i = (do check (i.p1 < (← get).once.size); Direct.once i : MachineM Flow) := by
    funext m
    rw [Tracked.once, bind_of_ok get_run, bind_of_ok get_run]
    cases h : Decidable.decide (i.p1 < m.once.size) <;> rfl
  rw [honce]
  exact .gets (fun _ _ => rfl) fun m => (Oblivious.check _).bind fun _ => Direct.oblivious_once i

theorem oblivious_treeCursor (k : Int) : Oblivious (treeCursor k) :=
  (oblivious_cursor k).bind fun _ => (Oblivious.check _).bind fun _ => .pure _

theorem oblivious_next : Oblivious (Tracked.next i) :=
  (Oblivious.check _).bind fun _ => (oblivious_treeCursor _).bind fun _ => (Oblivious.check _).bind fun _ =>
    Direct.oblivious_next i

theorem oblivious_nextIfOpen : Oblivious (Tracked.nextIfOpen i) :=
  (oblivious_cursor? _).bind fun _ => .ite (.pure _) (oblivious_next i)

theorem oblivious_indexCompare (b : Bound) : Oblivious (Tracked.indexCompare b i) :=
  (oblivious_treeCursor _).bind fun _ => (Oblivious.check _).bind fun _ => (Oblivious.check _).bind fun _ =>
    (Oblivious.check _).bind fun _ => (oblivious_register _).lift.discard.bind fun _ => Step.oblivious_indexCompare b i

end Tracked

end QueryMachine
