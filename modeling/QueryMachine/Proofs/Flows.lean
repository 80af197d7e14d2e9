import Mathlib
import QueryMachine.Machine.Run
import QueryMachine.Proofs.CellRules

/-!
What instructions answer. Only the instruction for result rows ends a run with the code for a row.
-/

namespace QueryMachine

/-- Every answer of the computation satisfies `P`. -/
def Answers {σ α : Type} (P : α → Prop) (x : EStateM Fault σ α) : Prop := ∀ s a s', x s = .ok a s' → P a

namespace Answers

variable {σ α β : Type} {P : α → Prop}

@[grind ←]
theorem pure {a : α} (h : P a) : Answers P (pure a : EStateM Fault σ α) := by
  intro s b s' hrun
  cases hrun
  exact h

@[grind ←]
theorem throw (e : Fault) : Answers P (throw e : EStateM Fault σ α) := by
  intro s b s' hrun
  cases hrun

theorem bind_of {Q : β → Prop} {x : EStateM Fault σ β} {k : β → EStateM Fault σ α} (hx : Answers Q x)
    (hk : ∀ b, Q b → Answers P (k b)) : Answers P (x >>= k) := by
  intro s a s' hrun
  obtain ⟨b, s₁, hb, hrun⟩ := bind_eq_ok hrun
  exact hk b (hx s b s₁ hb) s₁ a s' hrun

@[grind ←]
theorem bind {x : EStateM Fault σ β} {k : β → EStateM Fault σ α} (hk : ∀ b, Answers P (k b)) :
    Answers P (x >>= k) :=
  bind_of (Q := fun _ => True) (fun _ _ _ _ => trivial) fun b _ => hk b

theorem ite {p : Prop} [Decidable p] {x y : EStateM Fault σ α} (hx : Answers P x) (hy : Answers P y) :
    Answers P (if p then x else y) := by
  split
  · exact hx
  · exact hy

@[grind ←]
theorem lift {x : BankM α} (hx : Answers P x) : Answers P (liftM x : MachineM α) := by
  intro m a m' hrun
  obtain ⟨b, hb, -⟩ := Machine.lift_eq_ok hrun
  exact hx _ a b hb

end Answers

/-- The flow does not end a run with the code for a row. -/
def Flow.Rowless : Flow → Prop
  | .leave code | .fail code => code ≠ Machine.codeRow
  | .next | .jump _ => True

/-- The flow does not end a run but by a failure, and that is not the code for a row. -/
def Flow.Tame : Flow → Prop
  | .leave _ => False
  | .fail code => code ≠ Machine.codeRow
  | .next | .jump _ => True

namespace Flow

@[simp, grind ←] theorem tame_next : Flow.next.Tame := trivial

@[simp, grind ←] theorem tame_jump (target : Int) : (Flow.jump target).Tame := trivial

@[simp, grind ←] theorem tame_jumpIf (p : Bool) (target : Int) : (Flow.jumpIf p target).Tame := by
  cases p <;> trivial

theorem Tame.rowless {flow : Flow} (h : flow.Tame) : flow.Rowless := by
  cases flow with
  | leave code => exact h.elim
  | fail code => exact h
  | next | jump target => exact trivial

end Flow

namespace Outcome

/-- The function does not fail with the code for a row. -/
def Rowless (o : Outcome) : Prop := o.code ≠ Machine.codeRow

theorem zero_ne_codeRow : 0 ≠ Machine.codeRow := by decide

@[grind ←] theorem rowless_nothing : Outcome.nothing.Rowless := zero_ne_codeRow

@[grind ←] theorem rowless_null : Outcome.null.Rowless := zero_ne_codeRow

@[grind ←] theorem rowless_int (n : Int) : (Outcome.int n).Rowless := zero_ne_codeRow

@[grind ←] theorem rowless_real (x : Double) : (Outcome.real x).Rowless := zero_ne_codeRow

@[grind ←] theorem rowless_fixedText (b : Bytes) (ended : Bool) : (Outcome.fixedText b ended).Rowless :=
  zero_ne_codeRow

@[grind ←] theorem rowless_text (b : Bytes) (ended : Bool) : (Outcome.text b ended).Rowless := zero_ne_codeRow

@[grind ←] theorem rowless_madeText (b : Bytes) (ended : Bool) : (Outcome.madeText b ended).Rowless :=
  zero_ne_codeRow

@[grind ←] theorem rowless_ownText (b : Bytes) (ended : Bool) : (Outcome.ownText b ended).Rowless :=
  zero_ne_codeRow

@[grind ←] theorem rowless_blob (b : Bytes) : (Outcome.blob b).Rowless := zero_ne_codeRow

@[grind ←] theorem rowless_madeBlob (b : Bytes) : (Outcome.madeBlob b).Rowless := zero_ne_codeRow

@[grind ←] theorem rowless_zeros (n : Int) : (Outcome.zeros n).Rowless := zero_ne_codeRow

@[grind ←] theorem rowless_same (c : Cell) : (Outcome.same c).Rowless := zero_ne_codeRow

@[grind ←] theorem rowless_ofString (s : String) : (ofString s).Rowless := rowless_fixedText _ _

@[grind ←] theorem rowless_failure (s : String) : (failure s).Rowless :=
  show Machine.codeError ≠ Machine.codeRow by decide

@[grind ←] theorem rowless_tooBig : tooBig.Rowless := show 18 ≠ Machine.codeRow by decide

@[grind ←] theorem rowless_getD {α : Type} {o : Option α} {f : α → Outcome} {d : Outcome}
    (hf : ∀ a, (f a).Rowless) (hd : d.Rowless) : ((o.map f).getD d).Rowless := by
  cases o
  · exact hd
  · exact hf _

end Outcome

namespace Builtin

theorem rowless_trimArgs (left right : Bool) (args : List Nat) :
    Answers Outcome.Rowless (trimArgs left right args) := by
  cases args with
  | nil => exact .pure Outcome.rowless_nothing
  | cons r more =>
    refine .bind fun b => ?_
    cases b <;> cases more <;> grind

theorem rowless_extremeFrom (greatest : Bool) (coll : Option Collation) (best : Nat) (args : List Nat) :
    Answers Outcome.Rowless (extremeFrom greatest coll best args) := by
  induction args generalizing best <;> grind [extremeFrom]

theorem rowless_positionArgs (r s : Nat) : Answers Outcome.Rowless (positionArgs r s) := by
  refine .bind fun _ => .bind fun _ => .ite (.pure Outcome.rowless_nothing) (.bind fun _ => .bind fun _ => ?_)
  exact .bind fun _ => .bind fun _ => .pure (Outcome.rowless_int _)

theorem rowless_sliceArgs (r s : Nat) (more : List Nat) : Answers Outcome.Rowless (sliceArgs r s more) := by
  refine .bind fun _ => .ite (.pure Outcome.rowless_nothing) ?_
  cases more
  on_goal 2 => refine .bind fun _ => .ite (.pure Outcome.rowless_nothing) ?_
  all_goals
    refine .bind fun _ => .bind fun _ => .ite (.bind fun _ => .bind fun b => ?_) (.bind fun b => ?_) <;>
      cases b <;> grind

theorem rowless_matchArgs (s : Pattern.Style) (args : List Nat) : Answers Outcome.Rowless (matchArgs s args) := by
  unfold matchArgs
  split
  · refine .bind fun _ => .bind fun _ => .bind fun _ => .ite (.pure (Outcome.rowless_failure _)) ?_
    split
    · grind
    · refine .bind fun b => ?_
      cases b with
      | none => exact .pure Outcome.rowless_nothing
      | some b => split <;> grind
  · exact .pure Outcome.rowless_nothing

theorem rowless_absArg (r : Nat) : Answers Outcome.Rowless (absArg r) := by grind [absArg]

theorem rowless_roundArgs (r : Nat) (more : List Nat) : Answers Outcome.Rowless (roundArgs r more) := by
  cases more <;> grind [roundArgs]

theorem rowless_lengthArg (r : Nat) : Answers Outcome.Rowless (lengthArg r) := by grind [lengthArg]

theorem rowless_quoteArg (r : Nat) : Answers Outcome.Rowless (quoteArg r) := by grind [quoteArg]

theorem rowless_replaceArgs (r s t : Nat) : Answers Outcome.Rowless (replaceArgs r s t) := by
  refine .bind fun b => ?_
  cases b with
  | none => exact .pure Outcome.rowless_nothing
  | some b =>
    refine .bind fun old => ?_
    cases old <;> grind

theorem rowless_formatArgs (args : List Nat) : Answers Outcome.Rowless (formatArgs args) := by
  cases args <;> grind [formatArgs]

theorem rowless_patternArgs (now : Int) (args : List Nat) : Answers Outcome.Rowless (patternArgs now args) := by
  cases args <;> grind [patternArgs]

theorem rowless_renameArgs (f : Bytes → Option Bytes → Option Bytes) (r s : Nat) :
    Answers Outcome.Rowless (renameArgs f r s) := by
  grind [renameArgs]

theorem rowless_renameParentArgs (r s t : Nat) : Answers Outcome.Rowless (renameParentArgs r s t) := by
  grind [renameParentArgs]

theorem rowless_call (f : Builtin) (s : Surroundings) (args : List Nat) : Answers Outcome.Rowless (f.call s args) := by
  have hmoment (form : MomentForm) (m : Moment) : (momentOutcome form m).Rowless := by
    cases form <;> grind [momentOutcome]
  unfold call
  split <;>
    grind [rowless_trimArgs, rowless_extremeFrom, rowless_positionArgs, rowless_sliceArgs, rowless_matchArgs,
      rowless_absArg, rowless_roundArgs, rowless_lengthArg, rowless_quoteArg, rowless_replaceArgs,
      rowless_formatArgs, rowless_patternArgs, rowless_renameArgs, rowless_renameParentArgs]

end Builtin

namespace Machine

/-! The ways in which instructions are put together. -/

section Ways

variable {x y : MachineM Flow}

@[grind ←]
theorem tame_choose {f : Family} (hx : Answers Flow.Tame x) (hy : Answers Flow.Tame y) :
    Answers Flow.Tame (choose f x y) :=
  .bind fun _ => .ite hx hy

@[grind ←]
theorem tame_agreeing {f : Family} (hx : Answers Flow.Tame x) (hy : Answers Flow.Tame y) :
    Answers Flow.Tame (agreeing f x y) :=
  .bind fun _ => tame_choose (.bind fun _ => hx) (.bind fun _ => hy)

@[grind ←]
theorem tame_thenNext (x : MachineM Unit) : Answers Flow.Tame (thenNext x) :=
  .bind fun _ => .pure Flow.tame_next

@[grind ←]
theorem tame_mutating {rs : List Int} (hx : Answers Flow.Tame x) : Answers Flow.Tame (mutating rs x) :=
  hx.bind_of fun _ hflow => .bind fun _ => .pure hflow

@[grind ←]
theorem tame_noteOutput {i : Instruction} (hx : Answers Flow.Tame x) :
    Answers Flow.Tame (Tracked.noteOutput i x) := by
  refine hx.bind_of fun flow hflow => ?_
  cases flow <;> grind

@[grind ←]
theorem tame_abort (code : Nat) : Answers Flow.Tame (abort code) :=
  .bind fun _ => .bind fun _ => .pure (by simp [Flow.Tame, codeError, codeRow])

end Ways

theorem tame_fail {code : Nat} (h : code ≠ codeRow) {σ : Type} :
    Answers Flow.Tame (pure (.fail code) : EStateM Fault σ Flow) :=
  .pure h

theorem codeAbortRollback_ne_codeRow : codeAbortRollback ≠ codeRow := by decide
theorem codeCorrupt_ne_codeRow : codeCorrupt ≠ codeRow := by decide
theorem codeError_ne_codeRow : codeError ≠ codeRow := by decide
theorem codeSchema_ne_codeRow : codeSchema ≠ codeRow := by decide

theorem tame_corrupt {σ : Type} : Answers Flow.Tame (pure (.fail codeCorrupt) : EStateM Fault σ Flow) :=
  tame_fail codeCorrupt_ne_codeRow

section Rules

variable (pc : Int) (i : Instruction)

/-! The rules on registers. -/

theorem tame_jumpIf {σ : Type} (p : Bool) (target : Int) :
    Answers Flow.Tame (pure (.jumpIf p target) : EStateM Fault σ Flow) :=
  .pure (Flow.tame_jumpIf p target)

theorem tame_next {σ : Type} : Answers Flow.Tame (pure .next : EStateM Fault σ Flow) :=
  .pure Flow.tame_next

theorem tame_jump {σ : Type} (target : Int) : Answers Flow.Tame (pure (.jump target) : EStateM Fault σ Flow) :=
  .pure (Flow.tame_jump target)

theorem tame_once : Answers Flow.Tame (Tracked.once i) :=
  .bind fun _ => .bind fun _ => .ite (tame_jump _) (.bind fun _ => tame_next)

theorem tame_condition (negate : Bool) : Answers Flow.Tame (Tracked.condition negate i) :=
  .bind fun _ => .bind fun _ => .ite (tame_jumpIf _ _) (.bind fun _ => tame_jumpIf _ _)

theorem tame_comparison (rel : Relation) : Answers Flow.Tame (Tracked.comparison rel i) := by
  have hdecide (o : CompareOptions) (p : Bool) : Answers Flow.Tame (Tracked.decide o i p) :=
    .ite (.bind fun _ => .bind fun _ => .bind fun _ => tame_next) (tame_jumpIf _ _)
  refine .bind fun _ => .bind fun _ => .bind fun _ => .bind fun _ => .ite (.ite ?_ (.ite ?_ ?_)) (.ite (.ite ?_ ?_) ?_)
  · exact .bind fun _ => .bind fun _ => .bind fun _ => hdecide _ _
  · exact .bind fun _ => .bind fun _ => tame_next
  · exact tame_jumpIf _ _
  · exact .bind fun _ => .bind fun _ => hdecide _ _
  · exact .bind fun _ => .bind fun _ => hdecide _ _
  · refine .bind fun _ => .bind fun _ => .bind fun _ => .bind fun _ => .bind fun _ => .bind fun _ => ?_
    refine (hdecide _ _).bind_of fun _ hflow => .ite ?_ (.pure hflow)
    exact .bind fun _ => .bind fun _ => .pure hflow

theorem tame_directComparison (rel : Relation) : Answers Flow.Tame (Direct.comparison rel i) := by
  have hdecide (o : CompareOptions) (p : Bool) : Answers Flow.Tame (Direct.decide o i p) :=
    .ite (.bind fun _ => .bind fun _ => tame_next) (tame_jumpIf _ _)
  refine .bind fun _ => .bind fun _ => .bind fun _ => .bind fun _ => .ite (.ite ?_ (.ite ?_ ?_)) ?_
  · exact (hdecide _ _).bind_of fun _ hflow => .bind fun _ => .bind fun _ => .pure hflow
  · exact .bind fun _ => .bind fun _ => tame_next
  · exact tame_jumpIf _ _
  · refine .bind fun _ => .bind fun _ => .bind fun _ => .bind fun _ => .bind fun _ => .bind fun _ => ?_
    exact (hdecide _ _).bind_of fun _ hflow => .bind fun _ => .bind fun _ => .pure hflow

theorem tame_directMustBeInt : Answers Flow.Tame (Direct.mustBeInt i) := by
  refine .bind fun _ => .bind fun _ => .ite (.bind fun _ => ?_) ?_ <;>
    exact .bind fun _ => .ite (.bind fun _ => tame_next) (.ite (tame_abort _) (tame_jump _))

theorem tame_mustBeInt : Answers Flow.Tame (Tracked.mustBeInt i) :=
  .bind fun _ => .bind fun _ => .ite (.bind fun _ => tame_next) (.bind fun _ => tame_directMustBeInt i)

theorem tame_rowSetNext (r : Nat) (next : Option Int × RowSet) :
    Answers Flow.Tame (match next with
      | (some n, s) => do
        Direct.setRowSet r s
        Bank.modifyCell (← Bank.slot i.p3) (Cell.setInt n)
        return .next
      | (none, _) => do
        Bank.modifyCell r Cell.setNull
        return .jump i.p2 : BankM Flow) := by
  rcases next with ⟨_ | n, s⟩
  · exact .bind fun _ => tame_jump _
  · exact .bind fun _ => .bind fun _ => .bind fun _ => tame_next

theorem tame_rowSetRead : Answers Flow.Tame (Direct.rowSetRead i) :=
  .bind fun r => .bind fun _ => tame_rowSetNext i r _

/-! The rules on cursors and trees. -/

theorem tame_finishSeek (b : Bound) (o : Ordering) : Answers Flow.Tame (Step.finishSeek b o i) := by
  refine .bind fun _ => .ite (.bind fun found => ?_) (.ite tame_next (.bind fun _ => tame_jumpIf _ _))
  cases found
  · exact tame_abort _
  · exact tame_jumpIf _ _

theorem tame_seekTable (b : Bound) (key : Int) : Answers Flow.Tame (Step.seekTable b key i) := by
  refine .bind fun _ => .bind fun o => ?_
  cases o
  · exact tame_abort _
  · exact tame_finishSeek i b _

theorem tame_seekIndex (b : Bound) : Answers Flow.Tame (Step.seekIndex b i) := by
  refine .bind fun _ => .bind fun _ => .bind fun o => ?_
  cases o
  · exact tame_abort _
  · exact tame_finishSeek i b _

theorem tame_seekOrdered (b : Bound) : Answers Flow.Tame (Tracked.seekOrdered b i) := by
  have hcheck {x : MachineM Flow} (hx : Answers Flow.Tame x) (p : Bool) :
      Answers Flow.Tame (do let flow ← x; check p; return flow) :=
    hx.bind_of fun _ hflow => .bind fun _ => .pure hflow
  refine .bind fun _ => .bind fun _ => .bind fun _ => .bind fun _ => .ite (.bind fun _ => .bind fun _ => ?_) ?_
  · have hkey (r : Nat) (f : Flags) : Answers Flow.Tame (Machine.trackedSearch b i r f) := by
      refine .bind fun key => .ite (tame_jump _) (.ite (.bind fun x => ?_) (.bind fun x => ?_)) <;>
        exact .bind fun _ => hcheck (tame_seekTable i _ _) _
    exact .ite (.bind fun _ => hkey _ _) (hkey _ _)
  · exact .bind fun _ => .bind fun _ => .bind fun _ => hcheck (tame_seekIndex i b) _

theorem tame_directSeekOrdered (b : Bound) : Answers Flow.Tame (Direct.seekOrdered b i) := by
  refine .bind fun _ => .bind fun _ => .bind fun _ => .ite ?_ (.bind fun _ => tame_seekIndex i b)
  have hkey (k : Cell) : Answers Flow.Tame (Machine.directSearch b i k) :=
    .ite (tame_seekTable i _ _) (.ite (tame_jump _) (tame_seekTable i _ _))
  exact .bind fun _ => .bind fun _ => .ite (.bind fun _ => .bind hkey) (.bind hkey)

theorem tame_indexCompare (b : Bound) : Answers Flow.Tame (Step.indexCompare b i) := by
  refine .bind fun o => ?_
  cases o
  · exact tame_corrupt
  · exact tame_jumpIf _ _

theorem tame_goToRow (key : Int) : Answers Flow.Tame (Step.goToRow key i) := by
  refine .bind fun _ => .bind fun found => .bind fun _ => ?_
  cases found
  · exact tame_corrupt
  · exact tame_jumpIf _ _

theorem tame_lookup (l : Direct.Lookup) : Answers Flow.Tame (Direct.lookup l i) := by
  refine .bind fun _ => .bind fun _ => .bind fun o => ?_
  cases o
  · exact tame_corrupt
  · exact .bind fun _ => tame_jumpIf _ _

theorem tame_idxRowid : Answers Flow.Tame (Tracked.idxRowid i) := by
  refine .bind fun _ => .bind fun _ => .bind fun w => ?_
  rcases w with code | _ | n
  · exact tame_abort _
  · exact .bind fun _ => tame_next
  · exact .bind fun _ => .bind fun _ => tame_next

theorem tame_directIdxRowid : Answers Flow.Tame (Direct.idxRowid i) := by
  refine .bind fun _ => .bind fun _ => .bind fun w => ?_
  rcases w with code | _ | n
  · exact tame_abort _
  · exact tame_next
  · exact .bind fun _ => tame_next

theorem tame_opened (root : Int) : Answers Flow.Tame (Direct.openTable.opened i root) :=
  .bind fun _ => tame_next

theorem tame_openTable : Answers Flow.Tame (Direct.openTable i) := by
  refine .bind fun _ => .ite (tame_fail codeAbortRollback_ne_codeRow) (.ite (.bind fun _ => ?_) ?_) <;>
    exact .ite (.bind fun _ => .bind fun _ => .bind fun _ => .bind fun _ =>
      .ite (tame_abort _) (tame_opened i _)) (tame_opened i _)

theorem tame_rewind : Answers Flow.Tame (Direct.rewind i) := by
  refine .bind fun c => ?_
  cases c.source
  case sorter => exact .bind fun _ => tame_jumpIf _ _
  all_goals
    refine .bind fun _ => ?_
    generalize treeOf? _ _ = t
    cases t
    · exact .bind fun _ => tame_corrupt
    · exact .bind fun _ => tame_jumpIf _ _

theorem tame_directNext : Answers Flow.Tame (Direct.next i) := by
  refine .bind fun found => .bind fun _ => ?_
  cases found
  · exact tame_corrupt
  · exact tame_jumpIf _ _

theorem tame_nextIfOpen : Answers Flow.Tame (Direct.nextIfOpen i) :=
  .bind fun _ => .ite tame_next (tame_directNext i)

theorem tame_trackedNext : Answers Flow.Tame (Tracked.next i) :=
  .bind fun _ => .bind fun _ => .bind fun _ => tame_directNext i

theorem tame_rowid : Answers Flow.Tame (Direct.rowid i) := by
  refine .bind fun _ => .bind fun _ => .bind fun c => .ite (.bind fun _ => tame_next) ?_
  cases c.deferred with
  | some key => exact .bind fun _ => tame_next
  | none =>
    refine .bind fun _ => .ite (tame_abort _) (.bind fun c => .ite (.bind fun _ => tame_next) ?_)
    exact .bind fun _ => .bind fun _ => .bind fun _ => tame_next

theorem tame_insertEntry (j : Int) (e : Entry) (known : Ordering) (fromLast : Bool) :
    Answers Flow.Tame (Direct.insertEntry j e known fromLast) := by
  refine .bind fun c => .bind fun _ => .bind fun m => ?_
  cases m.treeOf? c with
  | none => exact .bind fun _ => tame_corrupt
  | some t =>
    dsimp only
    generalize Direct.insertOrder c t e known fromLast = w
    rcases w with ⟨_ | o, p⟩
    · exact .bind fun _ => tame_corrupt
    · exact .bind fun _ => tame_next

theorem tame_idxInsert : Answers Flow.Tame (Direct.idxInsert i) := by
  refine .bind fun _ => .bind fun _ => .bind fun c => ?_
  cases c.source
  case sorter => exact .bind fun _ => .bind fun _ => tame_next
  all_goals
    exact .bind fun _ => .bind fun _ => (tame_insertEntry _ _ _ _).bind_of fun _ hflow => .bind fun _ => .pure hflow

theorem tame_insert (key : Int) : Answers Flow.Tame (Direct.insert key i) := by
  have hinsert (e : Entry) : Answers Flow.Tame (do
      let flow ← Direct.insertEntry i.p1 e (← Direct.knownOrder i) (i.option 3)
      modifyCursor i.p1 fun c => { c.stale with deferred := none }
      return flow) :=
    .bind fun _ => (tame_insertEntry _ _ _ _).bind_of fun _ hflow => .bind fun _ => .pure hflow
  refine .bind fun _ => .ite (.bind fun _ => ?_) ?_ <;>
    exact .bind fun _ => .ite (.bind fun _ => .bind fun _ => hinsert _) (.bind fun _ => hinsert _)

theorem tame_delete : Answers Flow.Tame (Direct.delete i) :=
  .bind fun _ => .bind fun _ => .ite (.bind fun _ => .bind fun _ => .bind fun _ => tame_next)
    (.bind fun _ => tame_fail codeError_ne_codeRow)

theorem tame_newRowid : Answers Flow.Tame (Direct.newRowid i) := by
  refine .bind fun w => ?_
  cases w
  · exact tame_abort _
  · exact .bind fun _ => .bind fun _ => .bind fun _ => tame_next

theorem tame_clear : Answers Flow.Tame (Direct.clear i) := by
  refine .bind fun m => ?_
  cases m.database.tree? i.p1
  · exact tame_corrupt
  · exact .bind fun _ => .bind fun _ => .ite (.bind fun _ => .bind fun _ => tame_next) tame_next

theorem tame_sorterNext : Answers Flow.Tame (Direct.sorterNext i) := by
  refine .bind fun c => ?_
  cases c.source
  case sorter => exact .bind fun _ => tame_jumpIf _ _
  all_goals exact tame_next

theorem tame_column : Answers Flow.Tame (Direct.column i) := by
  refine .bind fun _ => .ite (tame_abort _) (.bind fun _ => .bind fun _ => .bind fun o => ?_)
  cases o with
  | none => exact .bind fun _ => tame_next
  | some w =>
    refine .bind fun _ => .ite tame_corrupt (.bind fun _ => .ite tame_corrupt ?_)
    generalize Reader.field? _ _ = f
    cases f <;> exact .bind fun _ => tame_next

theorem tame_transaction : Answers Flow.Tame (Direct.transaction i) :=
  .bind fun _ => .bind fun _ => .ite (.bind fun _ => tame_fail codeSchema_ne_codeRow) tame_next

theorem tame_parseSchema : Answers Flow.Tame (Direct.parseSchema i) := by
  refine .bind fun m => ?_
  split
  · split
    · exact .bind fun _ => tame_next
    · exact .bind fun _ => tame_corrupt
  · exact .bind fun _ => tame_fail codeError_ne_codeRow

theorem rowless_halt : Answers Flow.Rowless (Step.halt pc i) := by
  refine .bind fun _ => .bind fun _ => .pure ?_
  show (if i.p1 = 0 then codeDone else if i.p1 = codeBusy then codeBusy else codeError) ≠ codeRow
  split_ifs <;> decide

/-! Calls of functions. -/

theorem tame_failWith {code : Nat} (h : code ≠ codeRow) (message : Bytes) :
    Answers Flow.Tame (Direct.failWith code message) :=
  .bind fun _ => .pure h

theorem tame_function : Answers Flow.Tame (Direct.function pc i) := by
  refine .bind fun _ => .bind fun _ => .bind fun _ => .bind fun _ => ?_
  dsimp only
  generalize Builtin.ofName? _ _ = f
  cases f with
  | none => exact tame_next
  | some f =>
    refine .bind fun _ => (Answers.lift (Builtin.rowless_call _ _ _)).bind_of fun outcome ho => ?_
    refine .bind fun _ => .bind fun _ => ?_
    cases outcome
    case error => exact tame_failWith ho _
    all_goals exact tame_next

theorem tame_trackedFunction : Answers Flow.Tame (Tracked.function pc i) :=
  .bind fun _ => .ite (.bind fun _ => .bind fun _ => .bind fun _ => tame_next)
    (.bind fun _ => tame_noteOutput (tame_function pc i))

theorem tame_directAggStep : Answers Flow.Tame (Direct.aggStep pc i) := by
  refine .bind fun _ => .bind fun _ => ?_
  dsimp only
  generalize Fold.ofName? _ _ = f
  cases f
  · exact tame_next
  · exact .bind fun _ => .bind fun _ => .ite (.bind fun _ => .ite (.bind fun _ => .bind fun _ => tame_next)
      tame_next) tame_next

theorem tame_aggStep : Answers Flow.Tame (Tracked.aggStep pc i) :=
  .bind fun _ => .ite (.bind fun _ => .bind fun _ => .bind fun _ => .bind fun _ => .bind fun _ => .bind fun _ =>
    .bind fun _ => tame_next) (.bind fun _ => tame_directAggStep pc i)

theorem rowless_outcome (f : Fold) (a : Option Accumulator) : (f.outcome a).Rowless := by
  unfold Fold.outcome
  split <;> grind

theorem tame_directAggFinal : Answers Flow.Tame (Direct.aggFinal i) := by
  refine .bind fun _ => ?_
  dsimp only
  generalize Fold.ofName? _ _ = f
  cases f with
  | none => exact tame_next
  | some f =>
    refine .bind fun c => .bind fun _ => .bind fun _ => ?_
    have ho := rowless_outcome f (Fold.kept? c)
    cases hout : f.outcome (Fold.kept? c)
    case error => exact tame_failWith (by rwa [hout] at ho) _
    all_goals exact tame_next

theorem tame_aggFinal : Answers Flow.Tame (Tracked.aggFinal i) :=
  .bind fun _ => .ite (.bind fun _ => .bind fun _ => .bind fun _ => .bind fun _ => tame_next)
    (.bind fun _ => tame_directAggFinal i)

end Rules

/-- A run ends otherwise than by a failure only by the instruction for result rows or the one for the end. -/
theorem tame_step {pc : Int} {i : Instruction} (hrow : i.op ≠ .resultRow) (hhalt : i.op ≠ .halt) :
    Answers Flow.Tame (step pc i) := by
  cases hop : i.op <;> simp only [step, hop]
  case resultRow => exact absurd hop hrow
  case init => exact tame_jumpIf _ _
  case goto => exact tame_jump _
  case noop | explain | tableLock => exact tame_next
  case gosub =>
    exact tame_choose (.bind fun _ => .bind fun _ => .bind fun _ => .bind fun _ => .bind fun _ => .bind fun _ =>
      .bind fun _ => tame_jump _) (.lift (.bind fun _ => .bind fun _ => tame_jump _))
  case returnTo =>
    exact tame_choose (.lift (.bind fun _ => .bind fun _ => .bind fun _ => .bind fun _ => .bind fun _ => tame_jump _))
      (.lift (.bind fun _ => .bind fun _ => .bind fun _ => tame_jump _))
  case initCoroutine =>
    exact tame_choose (.lift (.bind fun _ => .bind fun _ => .bind fun _ => .bind fun _ => .bind fun _ =>
      tame_jumpIf _ _)) (.lift (.bind fun _ => .bind fun _ => tame_jumpIf _ _))
  case yield =>
    exact tame_mutating (tame_choose (.lift (.bind fun _ => .bind fun _ => .bind fun _ => .bind fun _ =>
      .bind fun _ => .bind fun _ => tame_jump _)) (.lift (.bind fun _ => .bind fun _ => .bind fun _ => tame_jump _)))
  case endCoroutine =>
    exact tame_choose (.bind fun _ => .bind fun _ => .bind fun _ => .bind fun _ => .bind fun _ => .bind fun _ =>
      tame_jump _) (.bind fun _ => .bind fun _ => .bind fun _ => .bind fun _ => tame_jump _)
  case isNull | notNull =>
    exact tame_choose (.lift (.bind fun _ => .bind fun _ => tame_jumpIf _ _))
      (.lift (.bind fun _ => .bind fun _ => tame_jumpIf _ _))
  case once =>
    exact tame_choose (tame_once i) (.bind fun _ => .ite (tame_jump _) (.bind fun _ => tame_next))
  case ifTrue | ifNot =>
    exact tame_choose (.lift (tame_condition i _))
      (.lift (.bind fun _ => .bind fun _ => .ite (tame_jumpIf _ _) (tame_jumpIf _ _)))
  case ifPos =>
    exact tame_choose (.lift (.bind fun _ => .bind fun _ => tame_jumpIf _ _))
      (.lift (.bind fun _ => .bind fun _ => tame_jumpIf _ _))
  case ifZero =>
    exact tame_choose (.lift (.bind fun _ => .bind fun _ => .bind fun _ => .bind fun _ => .bind fun _ =>
      .bind fun _ => tame_jumpIf _ _)) (.lift (.bind fun _ => .bind fun _ => .bind fun _ => tame_jumpIf _ _))
  case integer | null | real | sCopy | copy | move | parameter | collSeq | cast | affinity | realAffinity =>
    exact tame_thenNext _
  case add | subtract | multiply | divide | remainder | compare | makeRecord | blob => exact tame_thenNext _
  case openEphemeral | openAutoindex | openPseudo | sorterOpen | close | nullRow | seek => exact tame_thenNext _
  case createTable | createIndex | rowSetAdd | readCookie | setCookie | dropTable => exact tame_thenNext _
  case string | string8 | concat | sequence | rowKey | rowData | sorterData =>
    exact tame_mutating (tame_thenNext _)
  case mustBeInt => exact tame_choose (tame_mustBeInt i) (tame_directMustBeInt i)
  case eq | ne | lt | le | gt | ge =>
    exact tame_choose (.lift (tame_comparison i _)) (.lift (tame_directComparison i _))
  case jump =>
    refine tame_agreeing (fun m flow m' h => ?_) (.bind fun _ => tame_jump _)
    cases h
    exact Flow.tame_jump _
  case halt => exact absurd hop hhalt
  case column => exact tame_noteOutput (tame_column i)
  case function => exact tame_choose (tame_trackedFunction pc i) (tame_noteOutput (tame_function pc i))
  case aggStep => exact tame_choose (tame_aggStep pc i) (tame_directAggStep pc i)
  case aggFinal => exact tame_choose (tame_aggFinal i) (tame_directAggFinal i)
  case openRead | openWrite =>
    exact tame_choose (.bind fun _ => .bind fun _ => .throw _)
      (.ite (.bind fun _ => tame_openTable i) (tame_openTable i))
  case rewind | sorterSort | sort => exact tame_rewind i
  case next => exact tame_choose (tame_trackedNext i) (tame_directNext i)
  case nextIfOpen =>
    exact tame_choose (.bind fun _ => .ite tame_next (tame_trackedNext i)) (tame_nextIfOpen i)
  case rowid => exact tame_mutating (tame_rowid i)
  case seekLT | seekLE | seekGE | seekGT =>
    exact tame_mutating (tame_choose (tame_seekOrdered i _) (tame_directSeekOrdered i _))
  case idxLE | idxGT | idxLT | idxGE =>
    exact tame_mutating (tame_choose (.bind fun _ => .bind fun _ => .bind fun _ => .bind fun _ => .bind fun _ =>
      tame_indexCompare i _) (tame_indexCompare i _))
  case noConflict | notFound | found => exact tame_mutating (tame_lookup i _)
  case notExists =>
    exact tame_choose (.bind fun _ => .bind fun _ => .bind fun _ => .bind fun _ => tame_goToRow i _)
      (.bind fun _ => .bind fun _ => tame_goToRow i _)
  case idxRowid => exact tame_choose (tame_idxRowid i) (tame_directIdxRowid i)
  case sorterInsert | idxInsert => exact tame_mutating (tame_idxInsert i)
  case insert => exact .bind fun _ => .bind fun _ => tame_insert i _
  case insertInt => exact tame_insert i _
  case delete => exact tame_delete i
  case newRowid => exact tame_newRowid i
  case clear => exact tame_clear i
  case sorterNext => exact tame_sorterNext i
  case rowSetRead => exact .lift (tame_rowSetRead i)
  case rowSetTest => exact .lift (.bind fun _ => .bind fun _ => .bind fun _ => .bind fun _ => .bind fun _ => tame_jumpIf _ _)
  case transaction => exact tame_transaction i
  case parseSchema => exact tame_parseSchema i
  all_goals exact .throw _

/-- A run ends with the code for a row only by the instruction for result rows. -/
theorem rowless_step {pc : Int} {i : Instruction} (hrow : i.op ≠ .resultRow) :
    Answers Flow.Rowless (step pc i) := by
  by_cases hhalt : i.op = .halt
  · have hstep : step pc i = Step.halt pc i := by simp only [step, hhalt]
    rw [hstep]
    exact rowless_halt pc i
  · exact fun m flow m' h => (tame_step hrow hhalt m flow m' h).rowless

end Machine

end QueryMachine
