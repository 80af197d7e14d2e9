import Mathlib
import QueryMachine.Proofs.Contexts

/-!
The frame of the instructions. Like the rules on registers they leave the knowledge on the side where it
is held; besides they leave what is counted and traced, and all but a few of them where the current row is,
how the last two vectors compared and the contexts of aggregates.
-/

namespace QueryMachine

/-- The parts of a machine that only a few instructions change. -/
inductive Facet
  | row
  | orders
  | contexts
  | program
  deriving Repr, DecidableEq, Inhabited

/-- Whether an instruction leaves a part as it is. -/
def Opcode.leaves : Opcode → Facet → Bool
  | .resultRow, .row => false
  | .compare, .orders | .jump, .orders => false
  | .aggStep, .contexts | .aggFinal, .contexts => false
  | .string8, .program => false
  | _, _ => true

theorem Opcode.leaves_row {op : Opcode} (h : op ≠ .resultRow) : op.leaves .row = true := by
  unfold leaves
  split <;> first | rfl | contradiction

theorem Opcode.leaves_orders {op : Opcode} (hcompare : op ≠ .compare) (hjump : op ≠ .jump) :
    op.leaves .orders = true := by
  unfold leaves
  split <;> first | rfl | contradiction

theorem Opcode.leaves_contexts {op : Opcode} (hstep : op ≠ .aggStep) (hfinal : op ≠ .aggFinal) :
    op.leaves .contexts = true := by
  unfold leaves
  split <;> first | rfl | contradiction

namespace Machine

open Bank

/-- What every instruction leaves as it was; besides, the parts in `P`. -/
structure Abides (P : Facet → Prop) (m m' : Machine) : Prop where
  bank : m.bank.Abides m'.bank
  budget : m'.budget = m.budget
  tracked : m'.status.tracked = m.status.tracked
  trace : m'.trace = m.trace
  shown : m'.shown = m.shown
  registers : m'.registers = m.registers
  width : m'.width = m.width
  outfit : m'.outfit = m.outfit
  row : P .row → m'.result = m.result ∧ m'.hasRow = m.hasRow
  orders : P .orders → m'.order = m.order ∧ m'.directOrder = m.directOrder
  contexts : P .contexts → m'.contexts = m.contexts
  program : P .program → m'.program = m.program

/-- What belongs to the frame besides the bank. -/
structure Core where
  budget : Nat
  tracked : Family → Bool
  trace : List TraceEntry
  shown : List View
  registers : Nat
  width : Nat
  outfit : Outfit

def core (m : Machine) : Core := ⟨m.budget, m.status.tracked, m.trace, m.shown, m.registers, m.width, m.outfit⟩

variable {α β : Type} {P : Facet → Prop} {m m' : Machine}

theorem Abides.of_core (hbank : m.bank.Abides m'.bank) (hcore : m'.core = m.core)
    (hrow : P .row → m'.result = m.result ∧ m'.hasRow = m.hasRow)
    (horders : P .orders → m'.order = m.order ∧ m'.directOrder = m.directOrder)
    (hcontexts : P .contexts → m'.contexts = m.contexts)
    (hprogram : P .program → m'.program = m.program := by intro _; rfl) : Abides P m m' := by
  simp only [core, Core.mk.injEq] at hcore
  obtain ⟨hbudget, htracked, htrace, hshown, hregisters, hwidth, houtfit⟩ := hcore
  exact ⟨hbank, hbudget, htracked, htrace, hshown, hregisters, hwidth, houtfit, hrow, horders, hcontexts, hprogram⟩

theorem Abides.core_eq (h : Abides P m m') : m'.core = m.core := by
  simp only [core, h.budget, h.tracked, h.trace, h.shown, h.registers, h.width, h.outfit]

def abiding (P : Facet → Prop) : Frame Machine where
  rel := Abides P
  refl _ := .of_core (Bank.abiding.refl _) rfl (fun _ => ⟨rfl, rfl⟩) (fun _ => ⟨rfl, rfl⟩) fun _ => rfl
  trans h h' := .of_core (Bank.abiding.trans h.bank h'.bank) (h'.core_eq.trans h.core_eq)
    (fun hp => ⟨(h'.row hp).1.trans (h.row hp).1, (h'.row hp).2.trans (h.row hp).2⟩)
    (fun hp => ⟨(h'.orders hp).1.trans (h.orders hp).1, (h'.orders hp).2.trans (h.orders hp).2⟩)
    (fun hp => (h'.contexts hp).trans (h.contexts hp)) fun hp => (h'.program hp).trans (h.program hp)

/-- The parts that instructions change, and the bank. -/
def kept (m : Machine) : Bank × Core × Int × Bool × Ordering × Ordering × List (Nat × Context) × Array Instruction :=
  (m.bank, m.core, m.result, m.hasRow, m.order, m.directOrder, m.contexts, m.program)

theorem abides_of_kept (h : m'.kept = m.kept) : Abides P m m' := by
  simp only [kept, Prod.mk.injEq] at h
  obtain ⟨hbank, hcore, hresult, hhasRow, horder, hdirect, hcontexts, hprogram⟩ := h
  exact .of_core (by rw [hbank]; exact Bank.abiding.refl _) hcore (fun _ => ⟨hresult, hhasRow⟩)
    (fun _ => ⟨horder, hdirect⟩) (fun _ => hcontexts) fun _ => hprogram

theorem abiding_modify {f : Machine → Machine} (hf : ∀ m, (f m).kept = m.kept) :
    (abiding P).Keeps (modify f : MachineM PUnit) :=
  .modify fun m => abides_of_kept (hf m)

theorem Abides.withBank (m : Machine) {b : Bank} (h : m.bank.Abides b) : Abides P m (m.withBank b) :=
  .of_core h rfl (fun _ => ⟨rfl, rfl⟩) (fun _ => ⟨rfl, rfl⟩) fun _ => rfl

end Machine

section Rules

open Machine

variable {α : Type} {P : Facet → Prop} {x : BankM α} {y : MachineM α}

@[grind ←]
theorem Frame.Keeps.lift (hx : Bank.abiding.Keeps x) : (abiding P).Keeps (liftM x : MachineM α) := by
  intro m
  have hb := hx m.bank
  cases h : x m.bank with
  | ok a b =>
    rw [after_of_ok h] at hb
    rw [after_of_ok (lift_of_ok h)]
    exact .withBank m hb
  | error e b =>
    rw [after_of_error h] at hb
    rw [after_of_error (lift_of_error h)]
    exact .withBank m hb

theorem Oblivious.abiding (hy : Oblivious y) : (abiding P).Keeps y := by
  intro m
  obtain ⟨hm, hbuild⟩ := after_oblivious hy m
  obtain ⟨hextent, hbuild⟩ := Prod.mk.inj hbuild
  obtain ⟨hprogram, houtfit⟩ := Prod.mk.inj hbuild
  have hbank : m.bank.Abides (after y m).bank := Bank.abides_of_extent hextent (by rw [hm]; rfl) (by rw [hm]; rfl)
  rw [hm] at hbank hprogram houtfit ⊢
  refine .of_core hbank ?_ (fun _ => ⟨rfl, rfl⟩) (fun _ => ⟨rfl, rfl⟩) (fun _ => rfl) fun _ => hprogram
  rw [core, houtfit]
  rfl

end Rules

namespace Machine

open Bank

variable {α β : Type} {P : Facet → Prop} {m m' : Machine}

theorem resting_of_abiding {x : MachineM α} (hx : (abiding fun _ => True).Keeps x) : resting.Keeps x :=
  fun m => ⟨(hx m).contexts trivial, (hx m).tracked, ((hx m).orders trivial).1, ((hx m).orders trivial).2⟩

/-! The ways in which instructions are put together. -/

@[grind ←]
theorem abiding_choose {f : Family} {x y : MachineM α} (hx : (abiding P).Keeps x) (hy : (abiding P).Keeps y) :
    (abiding P).Keeps (choose f x y) :=
  Frame.Keeps.get.bind fun _ => .ite hx hy

@[grind ←]
theorem abiding_thenNext {x : MachineM Unit} (hx : (abiding P).Keeps x) : (abiding P).Keeps (thenNext x) :=
  hx.bind fun _ => .pure _

@[grind ←]
theorem abiding_mutating {rs : List Int} {x : MachineM Flow} (hx : (abiding P).Keeps x) :
    (abiding P).Keeps (mutating rs x) :=
  hx.bind fun _ => .bind (.forIn fun _ _ => (abiding_forgetAt _).lift.bind fun _ => .pure _) fun _ => .pure _

@[grind ←]
theorem abiding_agreeing {f : Family} {x y : MachineM α} (hx : (abiding P).Keeps x)
    (hy : (abiding P).Keeps y) : (abiding P).Keeps (agreeing f x y) :=
  Frame.Keeps.get.bind fun _ => abiding_choose ((Frame.Keeps.check _).bind fun _ => hx)
    ((Frame.Keeps.check _).bind fun _ => hy)

/-! The tracked rules on registers. -/

section Registers

@[grind ←]
theorem abiding_returnTo (i : Instruction) : Bank.abiding.Keeps (Tracked.returnTo i) := by grind [Tracked.returnTo]

@[grind ←]
theorem abiding_initCoroutine (i : Instruction) : Bank.abiding.Keeps (Tracked.initCoroutine i) := by
  grind [Tracked.initCoroutine]

@[grind ←]
theorem abiding_yield (pc : Int) (i : Instruction) : Bank.abiding.Keeps (Tracked.yield pc i) := by
  grind [Tracked.yield]

@[grind ←]
theorem abiding_isNull (i : Instruction) : Bank.abiding.Keeps (Tracked.isNull i) := by grind [Tracked.isNull]

@[grind ←]
theorem abiding_notNull (i : Instruction) : Bank.abiding.Keeps (Tracked.notNull i) := by grind [Tracked.notNull]

@[grind ←]
theorem abiding_condition (negate : Bool) (i : Instruction) : Bank.abiding.Keeps (Tracked.condition negate i) := by
  grind [Tracked.condition]

@[grind ←]
theorem abiding_ifPos (i : Instruction) : Bank.abiding.Keeps (Tracked.ifPos i) := by grind [Tracked.ifPos]

@[grind ←]
theorem abiding_ifZero (i : Instruction) : Bank.abiding.Keeps (Tracked.ifZero i) := by grind [Tracked.ifZero]

@[grind ←]
theorem abiding_integer (i : Instruction) : Bank.abiding.Keeps (Tracked.integer i) := by grind [Tracked.integer]

@[grind ←]
theorem abiding_null (i : Instruction) : Bank.abiding.Keeps (Tracked.null i) := by
  refine (abiding_register _).bind fun r => (abiding_setFlags _ _).bind fun _ => .bind (.forIn fun k _ => ?_)
    fun _ => .pure _
  exact (abiding_register _).bind fun r => (abiding_setNull r).bind fun _ => (abiding_setFlags r _).bind fun _ =>
    .pure _

@[grind ←]
theorem abiding_trackedReal (i : Instruction) : Bank.abiding.Keeps (Tracked.real i) := by grind [Tracked.real]

@[grind ←]
theorem abiding_sCopy (i : Instruction) : Bank.abiding.Keeps (Tracked.sCopy i) := by grind [Tracked.sCopy]

@[grind ←]
theorem abiding_copy (i : Instruction) : Bank.abiding.Keeps (Tracked.copy i) := by
  have hcopy (source target : Nat) : Bank.abiding.Keeps (Tracked.copyRegister source target) := by
    grind [Tracked.copyRegister]
  refine .bind (.forIn fun k _ => ?_) fun _ => .pure _
  exact (abiding_register _).bind fun r => (abiding_register _).bind fun j => (hcopy r j).bind fun _ => .pure _

@[grind ←]
theorem abiding_trackedMoveFrom (n : Nat) (p1 p2 : Int) (source target : Nat) :
    Bank.abiding.Keeps (Tracked.moveFrom n p1 p2 source target) := by
  induction n generalizing p1 p2 source target with
  | zero => exact .pure _
  | succ n ih =>
    exact (Bank.abiding_moveFrom _ _).bind fun _ => (abiding_register _).bind fun _ =>
      (abiding_register _).bind fun _ => ih _ _ _ _

@[grind ←]
theorem abiding_move (i : Instruction) : Bank.abiding.Keeps (Tracked.move i) := by grind [Tracked.move]

@[grind ←]
theorem abiding_trackedParameter (i : Instruction) : Bank.abiding.Keeps (Tracked.parameter i) := by
  grind [Tracked.parameter]

@[grind ←]
theorem abiding_collSeq (i : Instruction) : Bank.abiding.Keeps (Tracked.collSeq i) := by grind [Tracked.collSeq]

@[grind ←]
theorem abiding_trackedCast (i : Instruction) : Bank.abiding.Keeps (Tracked.cast i) := by grind [Tracked.cast]

@[grind ←]
theorem abiding_affinity (i : Instruction) : Bank.abiding.Keeps (Tracked.affinity i) := by
  refine (Frame.Keeps.expect _ _).bind fun letters => (Frame.Keeps.check _).bind fun _ => ?_
  refine .bind (.forIn fun x _ => ?_) fun _ => .pure _
  exact (abiding_register _).bind fun r => (abiding_applyAffinity r _).bind fun _ => .pure _

@[grind ←]
theorem abiding_realAffinity (i : Instruction) : Bank.abiding.Keeps (Tracked.realAffinity i) := by
  grind [Tracked.realAffinity]

@[grind ←]
theorem abiding_arithmetic (op : Arith) (i : Instruction) : Bank.abiding.Keeps (Tracked.arithmetic op i) := by
  have hreal (a b : Number) : Bank.abiding.Keeps (Tracked.arithReal op a b) := by
    cases op <;> grind [Tracked.arithReal]
  have hreals (left right out : Nat) (keep : Bool) :
      Bank.abiding.Keeps (Tracked.arithmetic.inReals op left right out keep) := by
    refine (abiding_realValue left).bind fun a => (abiding_realValue right).bind fun b => (hreal a b).bind fun x => ?_
    cases x with
    | none => exact abiding_setNull out
    | some x => grind
  refine (abiding_register _).bind fun left => (abiding_flags left).bind fun f =>
    (abiding_numericType left).bind fun t => (abiding_register _).bind fun right => (abiding_flags right).bind fun g =>
    (abiding_numericType right).bind fun u => (abiding_register _).bind fun out => .ite (abiding_setNull out) ?_
  refine .ite ((abiding_int left).bind fun a => (abiding_int right).bind fun b => ?_) (hreals left right out _)
  cases Tracked.arithInt op a b with
  | none => exact abiding_setNull out
  | some n => grind

@[grind ←]
theorem abiding_comparison (rel : Relation) (i : Instruction) : Bank.abiding.Keeps (Tracked.comparison rel i) := by
  have hdecide (o : CompareOptions) (holds : Bool) : Bank.abiding.Keeps (Tracked.decide o i holds) := by
    grind [Tracked.decide]
  have hreal (r : Nat) (f : Flags) : Bank.abiding.Keeps (Tracked.asReal r f) := by grind [Tracked.asReal]
  have hcoerce (o : CompareOptions) (r : Nat) (f : Flags) : Bank.abiding.Keeps (Tracked.coerce o r f) := by
    grind [Tracked.coerce]
  have hwiden (r : Nat) (f before : Flags) : Bank.abiding.Keeps (Tracked.widen r f before) := by
    grind [Tracked.widen]
  refine (abiding_register _).bind fun r1 => (abiding_flags r1).bind fun f1 => (abiding_register _).bind fun r3 =>
    (abiding_flags r3).bind fun f3 => .ite (.ite ?_ ?_) (.ite (.ite ?_ ?_) ?_)
  · exact (Frame.Keeps.check _).bind fun _ => (Frame.Keeps.check _).bind fun _ => (Frame.Keeps.check _).bind fun _ =>
      hdecide _ _
  · exact .ite ((abiding_register _).bind fun r => (abiding_retype r _).bind fun _ => .pure _) (.pure _)
  · exact (abiding_int r3).bind fun _ => (abiding_int r1).bind fun _ => hdecide _ _
  · exact (hreal r1 f1).bind fun _ => (hreal r3 f3).bind fun _ => hdecide _ _
  · refine (hcoerce _ r1 f1).bind fun g1 => (hcoerce _ r3 f3).bind fun g3 => (Frame.Keeps.check _).bind fun _ =>
      (hwiden r1 _ f1).bind fun w1 => (hwiden r3 _ f3).bind fun w3 => (abiding_compare r3 r1 _).bind fun o =>
      (hdecide _ _).bind fun flow => .ite ?_ (.pure _)
    exact (abiding_setFlags r1 _).bind fun _ => (abiding_setFlags r3 _).bind fun _ => .pure _

@[grind ←]
theorem abiding_compareVectors (k : KeyInfo) (p1 p2 : Int) (n c : Nat) :
    Bank.abiding.Keeps (Tracked.compareVectors k p1 p2 n c) := by
  induction n generalizing c with
  | zero => exact .pure _
  | succ n ih => grind [Tracked.compareVectors]

@[grind ←]
theorem abiding_makeRecord (format : Int) (i : Instruction) :
    Bank.abiding.Keeps (Tracked.makeRecord format i) := by
  have hadd (l : Tracked.Layout) (r : Int) : Bank.abiding.Keeps (Tracked.Layout.add format l r) := by
    grind [Tracked.Layout.add]
  have hcontents (xs : List (Int × SerialForm)) : Bank.abiding.Keeps (Tracked.contents xs) := by
    induction xs <;> grind [Tracked.contents]
  refine (abiding_register _).bind fun out => ?_
  have haffinity (letter : UInt8) : Bank.abiding.Keeps
      (forIn (Instruction.span i.p1 i.p2) PUnit.unit fun r _ => do
        applyAffinity (← register r) letter.toNat
        pure (ForInStep.yield PUnit.unit)) :=
    .forIn fun r _ => (abiding_register r).bind fun r => (abiding_applyAffinity r _).bind fun _ => .pure _
  have hwrite (x y : Cell → Cell) (p : Bool) : Bank.abiding.Keeps (do
      let c ← cell out
      putCell out (x c)
      setFlags out .onlyBlob
      if p then
        modifyCell out y
        setFlags out { blob := true, zero := true }) := by
    grind
  split
  · refine (haffinity _).bind fun _ => .bind (.foldlM hadd) fun layout => (abiding_grow out _ _).bind fun _ =>
      (hcontents _).bind fun contents => (Frame.Keeps.check _).bind fun _ => ?_
    exact hwrite _ _ _
  · refine .bind (.foldlM hadd) fun layout => (abiding_grow out _ _).bind fun _ =>
      (hcontents _).bind fun contents => (Frame.Keeps.check _).bind fun _ => ?_
    exact hwrite _ _ _

end Registers

/-! The rules that look beyond the registers. -/

section Rules

theorem abiding_callee (i : Instruction) : (abiding P).Keeps (callee i) := by
  refine (Frame.Keeps.expect _ _).bind fun ref => Frame.Keeps.get.bind fun m => ?_
  split
  · exact .bind (abiding_modify fun _ => rfl) fun _ => .pure _
  · exact .throw _

theorem abiding_noteOutput {i : Instruction} {x : MachineM Flow} (hx : (abiding P).Keeps x) :
    (abiding P).Keeps (Tracked.noteOutput i x) := by
  refine hx.bind fun flow => ?_
  cases flow <;> grind

theorem abiding_registers (rs : List Int) :
    (abiding P).Keeps (rs.mapM fun r => (onBank (register r) : MachineM Nat)) :=
  .mapM fun r => (abiding_register r).lift

theorem abiding_call (f : Func) (args : List Nat) (out : Nat) : Bank.abiding.Keeps (f.call args out) := by
  unfold Func.call
  split
  · rename_i s _
    cases s <;> grind [Scalar.call]
  · exact .throw _

theorem abiding_function (pc : Int) (i : Instruction) : (abiding P).Keeps (Tracked.function pc i) := by
  have hdirect : (abiding P).Keeps (Direct.function pc i) :=
    (Direct.oblivious_function i pc).abiding
  refine (abiding_callee i).bind fun f => .ite ?_ ?_
  · refine (abiding_register _).lift.bind fun out => (abiding_registers _).bind fun args => ?_
    exact (abiding_call f args out).lift.bind fun _ => .pure _
  · refine .bind (.forIn fun r _ => (abiding_forgetAt r).lift.bind fun _ => .pure _) fun _ => ?_
    exact abiding_noteOutput hdirect

theorem abiding_sumStep (s : RunningSum) (arg : Nat) : Bank.abiding.Keeps (s.step arg) := by
  grind [RunningSum.step]

theorem abiding_contextStep (c : Context) (args : List Nat) : Bank.abiding.Keeps (c.step args) := by
  have hsingle : Bank.abiding.Keeps (Context.single args) := by
    unfold Context.single
    split
    · exact .pure _
    · exact .throw _
  cases c with
  | count n =>
    cases args with
    | nil => exact .pure _
    | cons arg args => exact (abiding_valueKind arg).bind fun _ => .pure _
  | sum s => exact hsingle.bind fun arg => (abiding_sumStep s arg).bind fun _ => .pure _
  | avg s => exact hsingle.bind fun arg => (abiding_sumStep s arg).bind fun _ => .pure _
  | sumLength total => exact .bind (.mapM fun arg => abiding_valueBytes arg) fun _ => .pure _
  | joinText parts =>
    refine .bind (.mapM fun arg => (abiding_valueBytes arg).bind fun n => (abiding_valueText arg).bind fun text => ?_)
      fun _ => .pure _
    cases text <;> exact .pure _
  | plain => exact .throw _

theorem abiding_finalize (f : Func) (c : Option Context) (out : Nat) : Bank.abiding.Keeps (f.finalize c out) := by
  unfold Func.finalize
  split
  · rename_i a _
    cases a <;> rcases c with _ | c <;> try cases c
    all_goals grind [Aggregate.finalize]
  · exact .throw _

theorem abiding_setContext (hP : ¬ P .contexts) (r : Nat) (c : Option Context) : (abiding P).Keeps (setContext r c) :=
  .modify fun _ => .of_core (Bank.abiding.refl _) rfl (fun _ => ⟨rfl, rfl⟩) (fun _ => ⟨rfl, rfl⟩) fun hp => absurd hp hP

theorem abiding_aggStep (hP : ¬ P .contexts) (pc : Int) (i : Instruction) : (abiding P).Keeps (Tracked.aggStep pc i) := by
  refine (abiding_callee i).bind fun f => .ite ?_ ?_
  · have hopen (c : Option Context) : Bank.abiding.Keeps (f.openContext c) := by
      unfold Func.openContext
      split <;> first | exact .pure _ | exact .throw _
    refine (abiding_registers _).bind fun args => (abiding_register _).lift.bind fun out => ?_
    refine .bind (Frame.Keeps.get.bind fun _ => .pure _) fun c => (hopen c).lift.bind fun c => ?_
    exact (abiding_setContext hP out _).bind fun _ => (abiding_contextStep c args).lift.bind fun _ =>
      (abiding_setContext hP out _).bind fun _ => .pure _
  · exact abiding_forgetAll.lift.bind fun _ => (Direct.oblivious_aggStep i pc).abiding

theorem abiding_aggFinal (hP : ¬ P .contexts) (i : Instruction) : (abiding P).Keeps (Tracked.aggFinal i) := by
  refine (abiding_callee i).bind fun f => .ite ?_ ?_
  · refine (abiding_register _).lift.bind fun out => .bind (Frame.Keeps.get.bind fun _ => .pure _) fun c => ?_
    exact (abiding_finalize f c out).lift.bind fun _ => (abiding_setContext hP out _).bind fun _ => .pure _
  · exact abiding_forgetAll.lift.bind fun _ => (Direct.oblivious_aggFinal i).abiding

@[grind ←]
theorem abiding_cursor (i : Int) : (abiding P).Keeps (cursor i) := (oblivious_cursor i).abiding

@[grind ←]
theorem abiding_setCursor (i : Int) (c : Option Cursor) : (abiding P).Keeps (setCursor i c) :=
  (oblivious_setCursor i c).abiding

@[grind ←]
theorem abiding_modifyCursor (i : Int) (f : Cursor → Cursor) : (abiding P).Keeps (modifyCursor i f) :=
  (oblivious_modifyCursor i f).abiding

@[grind ←]
theorem abiding_treeCursor (i : Int) : (abiding P).Keeps (Tracked.treeCursor i) := (Tracked.oblivious_treeCursor i).abiding

@[grind ←]
theorem abiding_rowKey (n : Int) : (abiding P).Keeps (Tracked.rowKey n) := .ite (.pure _) (.throw _)

theorem abiding_gosub (pc : Int) (i : Instruction) : (abiding P).Keeps (Tracked.gosub pc i) := by
  refine Frame.Keeps.get.bind fun _ => (Frame.Keeps.check _).bind fun _ => (abiding_register _).lift.bind
    fun r => (abiding_isDynamic r).lift.bind fun _ => (Frame.Keeps.check _).bind fun _ => ?_
  exact (abiding_setFlags r _).lift.bind fun _ => (abiding_setInt r _ _).lift.bind fun _ => .pure _

theorem abiding_endCoroutine (i : Instruction) : (abiding P).Keeps (Tracked.endCoroutine i) :=
  (abiding_register _).lift.bind fun r => Frame.Keeps.get.bind fun _ => (abiding_int r).lift.bind
    fun _ => (Frame.Keeps.expect _ _).bind fun _ => (Frame.Keeps.check _).bind fun _ =>
    (abiding_setFlags r _).lift.bind fun _ => .pure _

theorem abiding_mustBeInt (i : Instruction) : (abiding P).Keeps (Tracked.mustBeInt i) := by
  have hdirect : (abiding P).Keeps (Direct.mustBeInt i) :=
    (Direct.oblivious_mustBeInt i).abiding
  grind [Tracked.mustBeInt]

theorem abiding_modify_orders (hP : ¬ P .orders) {f : Machine → Machine}
    (hf : ∀ m, f m = { m with order := (f m).order, directOrder := (f m).directOrder }) :
    (abiding P).Keeps (modify f : MachineM PUnit) := by
  refine .modify fun m => ?_
  rw [hf m]
  exact .of_core (Bank.abiding.refl _) rfl (fun _ => ⟨rfl, rfl⟩) (fun hp => absurd hp hP) fun _ => rfl

theorem abiding_trackedCompare (hP : ¬ P .orders) (i : Instruction) : (abiding P).Keeps (Tracked.compare i) := by
  refine .ite (.throw _) ((Frame.Keeps.check _).bind fun _ => (Frame.Keeps.expect _ _).bind fun k => ?_)
  exact (abiding_compareVectors k _ _ _ _).lift.bind fun _ => abiding_modify_orders hP fun _ => rfl

theorem abiding_directCompare (hP : ¬ P .orders) (i : Instruction) : (abiding P).Keeps (Direct.compare i) := by
  unfold Direct.compare
  split
  · refine .ite ?_ (.pure _)
    exact (Direct.oblivious_compareVectors _ _ _ _ _).lift.abiding.bind fun _ => abiding_modify_orders hP fun _ => rfl
  · exact .pure _

theorem abiding_jump (hP : ¬ P .orders) (i : Instruction) : (abiding P).Keeps (Tracked.jump i) :=
  fun _ => .of_core (Bank.abiding.refl _) rfl (fun _ => ⟨rfl, rfl⟩) (fun hp => absurd hp hP) fun _ => rfl

theorem abiding_directJump (i : Instruction) : (abiding P).Keeps (Direct.jump i) := Frame.Keeps.get.bind fun _ => .pure _

@[grind ←]
theorem abiding_renewStamp : (abiding P).Keeps Step.renewStamp := abiding_modify fun _ => rfl

@[grind ←]
theorem abiding_suspend (pc : Int) : (abiding P).Keeps (Step.suspend pc) :=
  .bind (abiding_modify fun _ => rfl) fun _ => .pure _

theorem abiding_modify_row (hP : ¬ P .row) {f : Machine → Machine}
    (hf : ∀ m, f m = { m with result := (f m).result, hasRow := (f m).hasRow }) :
    (abiding P).Keeps (modify f : MachineM PUnit) := by
  refine .modify fun m => ?_
  rw [hf m]
  exact .of_core (Bank.abiding.refl _) rfl (fun hp => absurd hp hP) (fun _ => ⟨rfl, rfl⟩) fun _ => rfl

theorem abiding_handOut (i : Instruction) :
    (abiding P).Keeps (forIn (List.range i.p2.toNat) PUnit.unit fun (k : Nat) _ => do
      let r ← register (i.p1 + k)
      check (← isValid r)
      if (← flags r).ephem then makeWriteable r
      nulTerminate r
      pure (ForInStep.yield PUnit.unit) : MachineM PUnit) := by
  refine .forIn fun k _ => ?_
  grind

theorem abiding_resultRow (hP : ¬ P .row) (pc : Int) (i : Instruction) : (abiding P).Keeps (Tracked.resultRow pc i) := by
  refine Frame.Keeps.get.bind fun _ => (Frame.Keeps.check _).bind fun _ => abiding_renewStamp.bind fun _ => ?_
  refine .bind (abiding_modify_row hP fun _ => rfl) fun _ => .bind (.discard (abiding_register _).lift) fun _ => ?_
  exact .bind (abiding_modify_row hP fun _ => rfl) fun _ => (abiding_handOut i).bind fun _ => abiding_suspend pc

theorem abiding_directResultRow (hP : ¬ P .row) (pc : Int) (i : Instruction) : (abiding P).Keeps (Direct.resultRow pc i) := by
  refine abiding_renewStamp.bind fun _ => .bind (abiding_modify_row hP fun _ => rfl) fun _ => ?_
  refine .bind (.forIn fun k _ => ?_) fun _ => abiding_suspend pc
  grind

@[grind ←]
theorem abiding_seekTable (b : Bound) (key : Int) (i : Instruction) : (abiding P).Keeps (Step.seekTable b key i) :=
  (Step.oblivious_seekTable b key i).abiding

@[grind ←]
theorem abiding_seekIndex (b : Bound) (i : Instruction) : (abiding P).Keeps (Step.seekIndex b i) :=
  (Step.oblivious_seekIndex b i).abiding

theorem abiding_seekOrdered (b : Bound) (i : Instruction) : (abiding P).Keeps (Tracked.seekOrdered b i) := by
  refine (abiding_cursor _).bind fun c => (Frame.Keeps.check _).bind fun _ => (Frame.Keeps.check _).bind fun _ => ?_
  refine (abiding_modifyCursor _ _).bind fun _ => .ite ?_ (by grind)
  have hseek (r : Nat) (f : Flags) (key : Int) : (abiding P).Keeps (do
      let x : Number ← if f.int then pure (.int key) else Bank.real r
      let b := if x.lt (.int key) then b.forLarger else if x.gt (.int key) then b.forSmaller else b
      let flow ← Step.seekTable b (← Tracked.rowKey key) i
      check (0 < i.p2)
      return flow) := by
    grind
  grind

theorem abiding_notExists (i : Instruction) : (abiding P).Keeps (Tracked.notExists i) :=
  (abiding_register _).lift.bind fun r => (abiding_cursor _).bind fun _ => (Frame.Keeps.check _).bind fun _ =>
    (abiding_int r).lift.bind fun _ => (Step.oblivious_goToRow _ i).abiding

theorem abiding_seek (i : Instruction) : (abiding P).Keeps (Tracked.seek i) :=
  .bind (.discard (abiding_treeCursor _)) fun _ => (abiding_modifyCursor _ _).bind fun _ =>
    (abiding_register _).lift.bind fun r => (abiding_intValue r).lift.bind fun _ =>
    (abiding_rowKey _).bind fun _ => abiding_modifyCursor _ _

theorem abiding_idxRowid (i : Instruction) : (abiding P).Keeps (Tracked.idxRowid i) := by
  refine (abiding_register _).lift.bind fun out => .bind (.discard (abiding_treeCursor _)) fun _ => ?_
  refine .bind (Step.oblivious_indexRow _).abiding fun w => ?_
  rcases w with code | _ | n
  · exact (oblivious_abort code).abiding
  · exact (abiding_setFlags out _).lift.bind fun _ => .pure _
  · exact (abiding_setInt out _ _).lift.bind fun _ => (abiding_setFlags out _).lift.bind fun _ =>
      .pure _

theorem abiding_sequence (i : Instruction) : (abiding P).Keeps (Tracked.sequence i) := by
  grind [Tracked.sequence]

theorem abiding_openTable (i : Instruction) : (abiding P).Keeps (openTable i) := by
  have hdirect : (abiding P).Keeps (Direct.openTable i) :=
    (Direct.oblivious_openTable i).abiding
  refine abiding_choose ((Frame.Keeps.check _).bind fun _ => (Frame.Keeps.check _).bind fun _ => .throw _) ?_
  exact .ite ((abiding_forgetAt _).lift.bind fun _ => hdirect) hdirect

theorem abiding_string8 (hP : ¬ P .program) (pc : Int) (i : Instruction) : (abiding P).Keeps (Direct.string8 pc i) := by
  rw [Direct.string8_eq]
  refine .bind (.modify fun m => ?_) fun _ => (Direct.oblivious_string i _).lift.abiding
  exact .of_core (Bank.abiding.refl _) rfl (fun _ => ⟨rfl, rfl⟩) (fun _ => ⟨rfl, rfl⟩) (fun _ => rfl) fun hp => absurd hp hP

end Rules

theorem abiding_either {f : Family} {x y : BankM α} (hx : Bank.abiding.Keeps x) (hy : Oblivious y) :
    (abiding P).Keeps (choose f (liftM x) (liftM y) : MachineM α) :=
  abiding_choose hx.lift hy.lift.abiding

/-- Every instruction keeps to the frame and leaves the parts that it does not change. -/
theorem abiding_step {pc : Int} {i : Instruction} (hP : ∀ p, P p → i.op.leaves p = true) :
    (abiding P).Keeps (step pc i) := by
  have hnot {p : Facet} (hp : i.op.leaves p = false) : ¬ P p := fun h => by simp [hP p h] at hp
  cases hop : i.op <;> simp only [step, hop]
  case init | goto | noop | explain | tableLock => exact .pure _
  case gosub => exact abiding_choose (abiding_gosub pc i) (Direct.oblivious_gosub i pc).lift.abiding
  case returnTo => exact abiding_either (abiding_returnTo i) (Direct.oblivious_returnTo i)
  case initCoroutine => exact abiding_either (abiding_initCoroutine i) (Direct.oblivious_initCoroutine i)
  case yield => exact abiding_mutating (abiding_either (abiding_yield pc i) (Direct.oblivious_yield i pc))
  case endCoroutine => exact abiding_choose (abiding_endCoroutine i) (Direct.oblivious_endCoroutine i).abiding
  case isNull => exact abiding_either (abiding_isNull i) (Direct.oblivious_isNull i)
  case notNull => exact abiding_either (abiding_notNull i) (Direct.oblivious_notNull i)
  case once => exact abiding_choose (Tracked.oblivious_once i).abiding (Direct.oblivious_once i).abiding
  case ifTrue | ifNot => exact abiding_either (abiding_condition _ i) (Direct.oblivious_condition i _)
  case ifPos => exact abiding_either (abiding_ifPos i) (Direct.oblivious_ifPos i)
  case ifZero => exact abiding_either (abiding_ifZero i) (Direct.oblivious_ifZero i)
  case integer => exact abiding_thenNext (abiding_choose (abiding_integer i).lift (.pure _))
  case null => exact abiding_thenNext (abiding_choose (abiding_null i).lift (.pure _))
  case real => exact abiding_thenNext (abiding_either (abiding_trackedReal i) (Direct.oblivious_real i))
  case sCopy => exact abiding_thenNext (abiding_either (abiding_sCopy i) (Direct.oblivious_sCopy i))
  case copy => exact abiding_thenNext (abiding_either (abiding_copy i) (Direct.oblivious_copy i))
  case move => exact abiding_thenNext (abiding_either (abiding_move i) (Direct.oblivious_move i))
  case parameter =>
    exact abiding_thenNext (abiding_choose (abiding_trackedParameter i).lift
      (abiding_forgetAll.lift.bind fun _ => (Direct.oblivious_parameter i).lift.abiding))
  case collSeq => exact abiding_thenNext (abiding_either (abiding_collSeq i) (Direct.oblivious_collSeq i))
  case cast => exact abiding_thenNext (abiding_either (abiding_trackedCast i) (Direct.oblivious_cast i))
  case affinity => exact abiding_thenNext (abiding_either (abiding_affinity i) (Direct.oblivious_affinity i))
  case realAffinity =>
    exact abiding_thenNext (abiding_either (abiding_realAffinity i) (Direct.oblivious_realAffinity i))
  case mustBeInt =>
    exact abiding_choose (abiding_mustBeInt i) (Direct.oblivious_mustBeInt i).abiding
  case add | subtract | multiply | divide | remainder =>
    exact abiding_thenNext (abiding_either (abiding_arithmetic _ i) (Direct.oblivious_arithmetic i _))
  case eq | ne | lt | le | gt | ge =>
    exact abiding_either (abiding_comparison _ i) (Direct.oblivious_comparison i _)
  case compare =>
    have hP : ¬ P .orders := hnot (by rw [hop]; rfl)
    exact abiding_thenNext (abiding_agreeing (abiding_trackedCompare hP i) (abiding_directCompare hP i))
  case jump => exact abiding_agreeing (abiding_jump (hnot (by rw [hop]; rfl)) i) (abiding_directJump i)
  case string =>
    exact abiding_mutating (abiding_thenNext (Direct.oblivious_string i _).lift.abiding)
  case string8 =>
    exact abiding_mutating (abiding_thenNext (abiding_string8 (hnot (by rw [hop]; rfl)) pc i))
  case blob => exact abiding_thenNext (Direct.oblivious_blob i).lift.abiding
  case concat =>
    exact abiding_mutating (abiding_thenNext (Direct.oblivious_concat i).lift.abiding)
  case resultRow =>
    have hP : ¬ P .row := hnot (by rw [hop]; rfl)
    exact abiding_choose (abiding_resultRow hP pc i) (abiding_directResultRow hP pc i)
  case halt => exact (Step.oblivious_halt pc i).abiding
  case makeRecord =>
    exact abiding_thenNext (Frame.Keeps.get.bind fun m =>
      abiding_either (abiding_makeRecord m.format i) (Direct.oblivious_makeRecord i _))
  case column => exact abiding_noteOutput (Direct.oblivious_column i).abiding
  case function =>
    exact abiding_choose (abiding_function pc i) (abiding_noteOutput (Direct.oblivious_function i pc).abiding)
  case aggStep =>
    exact abiding_choose (abiding_aggStep (hnot (by rw [hop]; rfl)) pc i) (Direct.oblivious_aggStep i pc).abiding
  case aggFinal =>
    exact abiding_choose (abiding_aggFinal (hnot (by rw [hop]; rfl)) i) (Direct.oblivious_aggFinal i).abiding
  case openRead | openWrite => exact abiding_openTable i
  case openEphemeral | openAutoindex =>
    exact abiding_thenNext (Direct.oblivious_openEphemeral i).abiding
  case openPseudo => exact abiding_thenNext (Direct.oblivious_openPseudo i).abiding
  case sorterOpen => exact abiding_thenNext (Direct.oblivious_sorterOpen i).abiding
  case close => exact abiding_thenNext (Direct.oblivious_close i).abiding
  case rewind | sorterSort | sort => exact (Direct.oblivious_rewind i).abiding
  case next => exact abiding_choose (Tracked.oblivious_next i).abiding (Direct.oblivious_next i).abiding
  case nextIfOpen =>
    exact abiding_choose (Tracked.oblivious_nextIfOpen i).abiding (Direct.oblivious_nextIfOpen i).abiding
  case nullRow => exact abiding_thenNext (Direct.oblivious_nullRow i).abiding
  case rowid => exact abiding_mutating (Direct.oblivious_rowid i).abiding
  case sequence =>
    exact abiding_mutating (abiding_thenNext (abiding_choose (abiding_sequence i) (Direct.oblivious_sequence i).abiding))
  case seekLT | seekLE | seekGE | seekGT =>
    exact abiding_mutating (abiding_choose (abiding_seekOrdered _ i) (Direct.oblivious_seekOrdered i _).abiding)
  case idxLE | idxGT | idxLT | idxGE =>
    exact abiding_mutating (abiding_choose (Tracked.oblivious_indexCompare i _).abiding
      (Step.oblivious_indexCompare _ i).abiding)
  case noConflict | notFound | found =>
    exact abiding_mutating (Direct.oblivious_lookup i _).abiding
  case notExists => exact abiding_choose (abiding_notExists i) (Direct.oblivious_notExists i).abiding
  case seek => exact abiding_thenNext (abiding_choose (abiding_seek i) (Direct.oblivious_seek i).abiding)
  case idxRowid => exact abiding_choose (abiding_idxRowid i) (Direct.oblivious_idxRowid i).abiding
  case sorterInsert | idxInsert =>
    exact abiding_mutating (Direct.oblivious_idxInsert i).abiding
  case insert => exact (Direct.oblivious_insertKey i).abiding
  case insertInt => exact (Direct.oblivious_insertInt i).abiding
  case delete => exact (Direct.oblivious_delete i).abiding
  case newRowid => exact (Direct.oblivious_newRowid i).abiding
  case rowKey | rowData =>
    exact abiding_mutating (abiding_thenNext (Direct.oblivious_rowData i).abiding)
  case createTable | createIndex =>
    exact abiding_thenNext (Direct.oblivious_create i _).abiding
  case clear => exact (Direct.oblivious_clear i).abiding
  case sorterData =>
    exact abiding_mutating (abiding_thenNext (Direct.oblivious_sorterData i).abiding)
  case sorterNext => exact (Direct.oblivious_sorterNext i).abiding
  case rowSetAdd => exact abiding_thenNext (Direct.oblivious_rowSetAdd i).lift.abiding
  case rowSetRead => exact (Direct.oblivious_rowSetRead i).lift.abiding
  case rowSetTest => exact (Direct.oblivious_rowSetTest i).lift.abiding
  case transaction => exact (Direct.oblivious_transaction i).abiding
  case readCookie => exact abiding_thenNext (Direct.oblivious_readCookie i).abiding
  case setCookie => exact abiding_thenNext (Direct.oblivious_setCookie i).abiding
  case dropTable => exact abiding_thenNext (Direct.oblivious_dropTable i).abiding
  case parseSchema => exact (Direct.oblivious_parseSchema i).abiding
  all_goals exact .throw _

theorem abiding_step_of (pc : Int) {i : Instruction} {p : Facet} (hp : i.op.leaves p = true) :
    (abiding (· = p)).Keeps (step pc i) :=
  abiding_step fun _ h => h ▸ hp

/-- Every instruction but the two for aggregates. -/
theorem sparing_step {pc : Int} {i : Instruction} (hstep : i.op ≠ .aggStep) (hfinal : i.op ≠ .aggFinal) :
    Sparing (step pc i) := by
  intro m
  have habide := abiding_step_of pc (Opcode.leaves_contexts hstep hfinal) m
  exact ⟨habide.contexts rfl, habide.tracked⟩

end Machine

end QueryMachine
