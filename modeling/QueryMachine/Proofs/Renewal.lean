import Mathlib
import QueryMachine.Proofs.Sides

/-!
What lasts from call to call, and what a reset takes back. A machine that has been set back gives the rows of a
statement that is made anew, unless an aggregate was left open, two vectors were compared and no jump was taken by
their order, or the schema was found to be another one: a reset takes back none of these.
-/

namespace QueryMachine

/-- The programs are the same but for instructions for texts that have been executed. -/
structure Measures (p p' : Array Instruction) : Prop where
  size : p'.size = p.size
  same : ∀ k, p'.getD k default = p.getD k default ∨
    (p.getD k default).op = .string8 ∧ p'.getD k default = (p.getD k default).measured

namespace Measures

variable {p p₁ p₂ : Array Instruction}

theorem refl (p : Array Instruction) : Measures p p := ⟨rfl, fun _ => .inl rfl⟩

theorem trans (h : Measures p p₁) (h' : Measures p₁ p₂) : Measures p p₂ := by
  refine ⟨h'.size.trans h.size, fun k => ?_⟩
  rcases h.same k with hk | ⟨hop, hk⟩ <;> rcases h'.same k with hk' | ⟨hop', hk'⟩
  · exact .inl (hk'.trans hk)
  · rw [hk] at hop' hk'
    exact .inr ⟨hop', hk'⟩
  · exact .inr ⟨hop, hk'.trans hk⟩
  · rw [hk] at hop'
    cases hop'

end Measures

/-- No instruction of the program changes the part. -/
def Quiet (f : Facet) (p : Array Instruction) : Prop := ∀ i ∈ p, i.op.leaves f = true

namespace Quiet

variable {f : Facet} {p p' : Array Instruction}

theorem getD (h : Quiet f p) (k : Nat) : (p.getD k default).op.leaves f = true := by
  rw [Array.getD_eq_getD_getElem?]
  cases hk : p[k]? with
  | none => cases f <;> rfl
  | some i => exact h i (Array.mem_of_getElem? hk)

theorem measures (h : Quiet f p) (hp : Measures p p') : Quiet f p' := by
  intro i hi
  obtain ⟨k, hk⟩ := Array.mem_iff_getElem?.mp hi
  obtain rfl : p'.getD k default = i := by rw [Array.getD_eq_getD_getElem?, hk]; rfl
  obtain hk | ⟨-, hk⟩ := hp.same k
  · rw [hk]
    exact h.getD k
  · rw [hk]
    cases f <;> rfl

end Quiet

namespace Machine

open Bank

variable {α : Type} {m m₁ m₂ : Machine} {pc : Int} {sheet : Option Sheet} {i : Instruction} {c : Course}

/-- The frame of rules that only work on the bank. -/
def banking : Frame Machine where
  rel m m' := m' = m.withBank m'.bank
  refl _ := rfl
  trans h h' := by rw [h', h]; rfl

theorem banking_lift (x : BankM α) : banking.Keeps (liftM x : MachineM α) := by
  intro m
  cases h : x m.bank with
  | ok a b => rw [after_of_ok (lift_of_ok h)]; rfl
  | error e b => rw [after_of_error (lift_of_error h)]; rfl

theorem banking_eq {x : MachineM α} {a : α} (hx : banking.Keeps x) (h : x m = .ok a m₁) :
    m₁ = m.withBank m₁.bank := by
  have hbank := hx m
  rwa [after_of_ok h] at hbank

theorem fetch_entered (hi : fetch pc m = .ok i m) : fetch pc (m.entered pc i sheet) = .ok i (m.entered pc i sheet) := by
  refine fetch_congr (m := m) ?_ hi
  show (m.revealed sheet).settleTrace.program = m.program
  rw [settleTrace_eq]
  rfl

/-! What lasts. -/

/-- What a machine is made with lasts, and its program does but for the lengths of texts. -/
structure Outlasts (m m' : Machine) : Prop where
  extent : m'.bank.extent = m.bank.extent
  blank : m'.bank.holder.blank = m.bank.holder.blank
  useCache : m'.bank.holder.useCache = m.bank.holder.useCache
  registers : m'.registers = m.registers
  width : m'.width = m.width
  tracked : m'.status.tracked = m.status.tracked
  outfit : m'.outfit = m.outfit
  program : Measures m.program m'.program
  contexts : Quiet .contexts m.program → m'.contexts = m.contexts
  orders : Quiet .orders m.program → m'.order = m.order ∧ m'.directOrder = m.directOrder

/-- What lasts, as it is. -/
def lasting (m : Machine) :=
  (m.bank.extent, m.bank.holder.blank, m.bank.holder.useCache, m.registers, m.width, m.status.tracked, m.outfit,
    m.program, m.contexts, m.order, m.directOrder)

theorem Outlasts.of_lasting (h : m₁.lasting = m.lasting) : m.Outlasts m₁ := by
  simp only [lasting, Prod.mk.injEq] at h
  obtain ⟨hextent, hblank, huse, hregisters, hwidth, htracked, houtfit, hprogram, hcontexts, horder, hdirect⟩ := h
  exact ⟨hextent, hblank, huse, hregisters, hwidth, htracked, houtfit, by rw [hprogram]; exact .refl _,
    fun _ => hcontexts, fun _ => ⟨horder, hdirect⟩⟩

theorem Outlasts.trans (h : m.Outlasts m₁) (h' : m₁.Outlasts m₂) : m.Outlasts m₂ :=
  ⟨h'.extent.trans h.extent, h'.blank.trans h.blank, h'.useCache.trans h.useCache, h'.registers.trans h.registers,
    h'.width.trans h.width, h'.tracked.trans h.tracked, h'.outfit.trans h.outfit, h.program.trans h'.program,
    fun hq => (h'.contexts (hq.measures h.program)).trans (h.contexts hq), fun hq =>
    have ho := h.orders hq
    have ho' := h'.orders (hq.measures h.program)
    ⟨ho'.1.trans ho.1, ho'.2.trans ho.2⟩⟩

theorem Abides.outlasts {P : Facet → Prop} (h : Abides P m m₁) (hP : ∀ f, Quiet f m.program → P f)
    (hp : Measures m.program m₁.program) : m.Outlasts m₁ :=
  ⟨h.bank.extent, h.bank.holder.blank, h.bank.holder.useCache, h.registers, h.width, h.tracked, h.outfit, hp,
    fun hq => h.contexts (hP _ hq), fun hq => h.orders (hP _ hq)⟩

theorem Abides.outlasts_of_program (h : Abides (fun _ => True) m m₁) : m.Outlasts m₁ :=
  h.outlasts (fun _ _ => trivial) (by rw [h.program trivial]; exact .refl _)

theorem Outlasts.freeze (h : m.Outlasts m₁) : m₁.status.freeze = m.status.freeze := by
  have hcache : m₁.status.useFlagCache = m.status.useFlagCache := congrArg Outfit.useFlagCache h.outfit
  rw [Status.freeze, Status.freeze, hcache, h.tracked]

theorem fetched (hi : fetch pc m = .ok i m) :
    ∃ k, wrapIndex? m.program.size pc = some k ∧ m.program.getD k default = i := by
  simp only [fetch, bind_of_ok get_run] at hi
  cases hw : wrapIndex? m.program.size pc with
  | none =>
    rw [hw] at hi
    cases hi
  | some k =>
    rw [hw] at hi
    cases hi
    exact ⟨k, rfl, rfl⟩

theorem measures_measured (hi : fetch pc m = .ok i m) (hop : i.op = .string8) :
    Measures m.program (Direct.measured pc i m.program) := by
  obtain ⟨k, hk, rfl⟩ := fetched hi
  rw [Direct.measured, hk]
  refine ⟨Array.size_setIfInBounds, fun j => ?_⟩
  by_cases hj : k = j
  · subst hj
    have hlt := wrapIndex?_lt hk
    exact .inr ⟨hop, by simp [Array.getD_eq_getD_getElem?, hlt]⟩
  · exact .inl (by simp [Array.getD_eq_getD_getElem?, hj])

theorem measures_step (hi : fetch pc m = .ok i m) : Measures m.program (after (step pc i) m).program := by
  by_cases hop : i.op = .string8
  · have hstep : step pc i = (do
        modify fun m => { m with program := Direct.measured pc i m.program }
        Direct.string (i.p4.text?.getD []).length i
        for r in [i.p2] do forgetAt r
        return .next : MachineM Flow) := by
      simp only [step, hop, mutating, thenNext, Direct.string8_eq, bind_assoc, pure_bind]
    have hrest : banking.Keeps (do
        Direct.string (i.p4.text?.getD []).length i
        for r in [i.p2] do forgetAt r
        return .next : MachineM Flow) :=
      (banking_lift _).bind fun _ => .bind (.forIn fun _ _ => (banking_lift _).bind fun _ => .pure _) fun _ => .pure _
    rw [hstep, after_bind_of_ok (modify_run _), hrest]
    exact measures_measured hi hop
  · have hleaves : i.op.leaves .program = true := by
      unfold Opcode.leaves
      split <;> first | rfl | contradiction
    rw [(abiding_step_of pc hleaves m).program rfl]
    exact .refl _

theorem outlasts_execute (hi : fetch pc m = .ok i m) : m.Outlasts (after (execute pc i) m) := by
  have hquiet (f : Facet) (hf : Quiet f m.program) : i.op.leaves f = true := by
    obtain ⟨k, -, rfl⟩ := fetched hi
    exact hf.getD k
  have habide : Abides (fun f => Quiet f m.program) m (after (execute pc i) m) :=
    ((abiding_prepare i).lift.bind fun _ => abiding_step hquiet) m
  refine habide.outlasts (fun _ => id) ?_
  have hbank := banking_lift (prepare i) m
  cases hp : (liftM (prepare i) : MachineM Unit) m with
  | error e m₁ =>
    rw [after_of_error hp] at hbank
    rw [after_of_error (show execute pc i m = .error e m₁ from bind_of_error hp), hbank]
    exact .refl _
  | ok _ m₁ =>
    rw [after_of_ok hp] at hbank
    rw [execute, after_bind_of_ok hp]
    have hprogram : m₁.program = m.program := by rw [hbank]; rfl
    rw [← hprogram]
    exact measures_step (fetch_congr hprogram hi)

def outlasting : Frame Machine := ⟨Outlasts, fun _ => .of_lasting rfl, .trans⟩

theorem outlasting_of_abiding {x : MachineM α} (hx : (abiding fun _ => True).Keeps x) : outlasting.Keeps x :=
  fun m => (hx m).outlasts_of_program

theorem outlasting_settle (pc : Int) (i : Instruction) (flow : Flow) : outlasting.Keeps (settle pc i flow) := by
  have hconclude := outlasting_of_abiding (abiding_conclude i).lift
  have hcurrent := outlasting_of_abiding abiding_current?.lift
  have hhide : outlasting.Keeps (liftM hide : MachineM Unit) := fun _ => .of_lasting rfl
  cases flow with
  | leave code => exact .pure _
  | next => exact hconclude.bind fun _ => hcurrent.bind fun _ => .pure _
  | jump target => exact hconclude.bind fun _ => hcurrent.bind fun _ => .ite (hhide.bind fun _ => .pure _) (.pure _)
  | fail code => exact hconclude.bind fun _ => .pure _

theorem outlasts_entered (m : Machine) (pc : Int) (i : Instruction) (sheet : Option Sheet) :
    m.Outlasts (m.entered pc i sheet) := by
  rw [entered, enterTrace, settleTrace_eq]
  exact .of_lasting rfl

theorem outlasting_turn (pc : Int) (sheet : Option Sheet) : outlasting.Keeps (turn pc sheet) := by
  intro m
  have hrest {i : Instruction} (hi : fetch pc m = .ok i m) :
      m.Outlasts (after (execute pc i >>= settle pc i) (m.entered pc i sheet)) :=
    (outlasts_entered m pc i sheet).trans
      (Frame.Keeps.after_bind (outlasting_settle pc i) (outlasts_execute (fetch_entered hi)))
  cases ht : turn pc sheet m with
  | ok c m₁ =>
    obtain ⟨i, flow, m₂, hi, -, -, hx, hs⟩ := turn_eq_ok ht
    have hlasts := hrest hi
    rwa [after_of_ok ((bind_of_ok hx).trans hs), ← after_of_ok ht] at hlasts
  | error e m₁ =>
    obtain rfl | ⟨i, hi, hx⟩ := turn_eq_error ht
    · rw [after_of_error ht]
      exact .of_lasting rfl
    · have hlasts := hrest hi
      have herror : (execute pc i >>= settle pc i) (m.entered pc i sheet) = .error e m₁ := by
        obtain hx | ⟨flow, m₂, hx, hs⟩ := hx
        · exact bind_of_error hx
        · exact (bind_of_ok hx).trans hs
      rwa [after_of_error herror, ← after_of_error ht] at hlasts

theorem outlasting_loop (fuel : Nat) (c : Course) : outlasting.Keeps (loop fuel c) := by
  induction fuel generalizing c with
  | zero =>
    cases c with
    | ended code => exact .pure _
    | going pc sheet => exact .throw _
  | succ fuel ih =>
    cases c with
    | ended code => exact .pure _
    | going pc sheet => exact (outlasting_turn pc sheet).bind fun c => ih c

theorem outlasts_run (h : m.bank.holder.Outside) : m.Outlasts (after run m) := by
  have hstarted : m.Outlasts m.started := .of_lasting rfl
  have hloop := hstarted.trans (outlasting_loop (m.budget + 1) m.outset m.started)
  obtain ⟨code, m₁, hl, -, hrun⟩ | ⟨e, m₁, hl, -, hrun⟩ := run_cases h
  · rw [after_of_ok hl] at hloop
    rw [after_of_ok hrun]
    exact hloop.trans (.of_lasting rfl)
  · rw [after_of_error hl] at hloop
    rwa [after_of_error hrun]

/-! Resets. -/

/-- The machine after a reset. -/
def cleared (m : Machine) : Machine :=
  { m with
    bank := { m.bank with
      cells := m.bank.cells.mapIdx fun i c => if 1 ≤ i && i < m.bank.reach then retire c else c
      holder := { m.bank.holder with outside := some m.bank.holder.blank } }
    once := m.once.map fun _ => false
    cursors := m.cursors.map fun _ => none
    before := none
    halted := false
    message := none
    hasRow := false
    pc := -1
    stamp := 1
    format := 255 }

theorem reset_run (h : m.bank.holder.inside = none) : reset m = .ok () m.cleared := by
  rw [reset, bind_of_ok (forgetAllOutside_run h)]
  rfl

theorem cellAt_cleared (m : Machine) (r : Nat) :
    m.cleared.bank.cellAt r = if 1 ≤ r ∧ r < m.bank.reach then retire (m.bank.cellAt r) else m.bank.cellAt r := by
  have hnone : retire {} = {} := rfl
  rw [cellAt, cellAt, Array.getD_eq_getD_getElem?, Array.getD_eq_getD_getElem?, cleared, Array.getElem?_mapIdx]
  cases m.bank.cells[r]? <;> simp [hnone]

theorem outlasts_cleared (m : Machine) : m.Outlasts m.cleared :=
  .of_lasting (by simp [lasting, outfit, cleared, extent])

theorem outlasts_bindText (h : m.bank.holder.Outside) (j : Int) (bytes : Bytes) :
    m.Outlasts (after (bindText j bytes) m) := by
  have hforgotten : m.Outlasts m.forgotten := .of_lasting rfl
  rw [bindText, after_bind_of_ok (forgetAllOutside_run h.1)]
  refine hforgotten.trans ((Frame.Keeps.get (F := outlasting)).bind (fun m => .ite (.pure _) (.ite (.pure _) ?_)) _)
  exact (outlasting_of_abiding (abiding_modifyCellWith _ _).lift).bind fun _ => .pure _

/-- The statement of `s` made anew where `m` is: its parameters have their values, and its registers are undefined,
whatever lies in them. -/
def anew (s : Setup) (m : Machine) : Machine :=
  { ofSetup s with
    bank := { (ofSetup s).bank with
      cells := m.cleared.bank.cells
      -- sheets and names for buffers are given out for all statements
      ledger := m.bank.ledger
      fresh := m.bank.fresh }
    program := m.program
    -- what belongs to the connection
    registry := m.registry
    database := m.database
    catalog := m.catalog
    inTransaction := m.inTransaction
    drawn := m.drawn
    lastRowid := m.lastRowid
    changes := m.changes
    totalChanges := m.totalChanges
    -- what is counted and traced
    budget := m.budget
    trace := m.trace
    shown := m.shown }

/-- The machine goes on with what a reset does not take back from another one. -/
def recalling (new m : Machine) : Machine :=
  { new with
    contexts := m.contexts
    order := m.order
    directOrder := m.directOrder
    expired := m.expired }

theorem cleared_eq {s : Setup} (h : (ofSetup s).Outlasts m) (hinside : m.bank.holder.inside = none) :
    m.cleared = { (anew s m).recalling m with result := m.result, status := m.status } := by
  have houtfit := h.outfit
  simp only [outfit, Outfit.mk.injEq] at houtfit
  obtain ⟨hcursors, honce, hexpiring, hdraws, hclock, -⟩ := houtfit
  have hreach : m.bank.reach = (ofSetup s).bank.reach := congrArg Extent.reach h.extent
  have hindexed : m.bank.indexed = (ofSetup s).bank.indexed := congrArg Extent.indexed h.extent
  have hholder : m.cleared.bank.holder = (ofSetup s).bank.holder := by
    dsimp only [cleared]
    rw [hinside, h.blank, h.useCache]
    rfl
  have hbank : m.cleared.bank = { (ofSetup s).bank with
      cells := m.cleared.bank.cells, ledger := m.bank.ledger, fresh := m.bank.fresh } := by
    dsimp only
    rw [← hholder, ← hreach, ← hindexed]
    rfl
  have hcursors : m.cleared.cursors = (ofSetup s).cursors := by
    show m.cursors.map (fun _ => none) = _
    rw [Array.map_const', hcursors]
    simp [ofSetup]
  have honce : m.cleared.once = (ofSetup s).once := by
    show m.once.map (fun _ => false) = _
    rw [Array.map_const', honce]
    simp [ofSetup]
  unfold recalling anew
  dsimp only at hbank ⊢
  rw [← hbank, ← hcursors, ← honce, ← h.registers, ← h.width, ← hexpiring, ← hdraws, ← hclock]
  rfl

theorem run_congr {first : Int} {status : Status} (h : m.bank.holder.inside = none)
    (hstatus : status.freeze = m.status.freeze) : run { m with result := first, status } = run m := by
  have hstarted : started { m with result := first, status } = m.started := by
    show { m.started with status := status.freeze } = m.started
    rw [hstatus]
    rfl
  rw [run_eq (m := { m with result := first, status }) h, run_eq h, hstarted]
  rfl

theorem rows_congr {first : Int} {status : Status} (h : m.bank.holder.inside = none)
    (hstatus : status.freeze = m.status.freeze) (limit : Option Nat) :
    rows limit { m with result := first, status } = rows limit m := by
  show EStateM.bind run _ { m with result := first, status } = EStateM.bind run _ m
  rw [EStateM.bind, EStateM.bind, run_congr h hstatus]

/-- Nothing is left of the runs so far that a reset does not take back. -/
structure Concluded (m : Machine) : Prop where
  contexts : m.contexts = []
  order : m.order = .eq
  directOrder : m.directOrder = .eq
  expired : m.expired = false

theorem recalling_of_concluded (h : m.Concluded) (s : Setup) : (anew s m).recalling m = anew s m := by
  rw [recalling, h.contexts, h.order, h.directOrder, h.expired]
  rfl

end Machine

namespace Request

open Machine Bank

theorem spans_outlasting : Spans outlasting where
  aside := Abides.outlasts_of_program
  run := outlasts_run
  reset h := after_of_ok (reset_run h.1) ▸ outlasts_cleared _
  bindText j bytes h := outlasts_bindText h j bytes

/-- A row between the step of a count and its end. -/
def counting : Setup where
  registers := 4
  columns := 1
  program :=
    let count := Operand.func (.ofBuiltin "count" 0 true)
    #[⟨.null, 0, 2, 0, .none, 0⟩, ⟨.aggStep, 0, 0, 1, count, 0⟩, ⟨.resultRow, 2, 1, 0, .none, 0⟩,
      ⟨.aggFinal, 1, 0, 0, count, 0⟩, ⟨.resultRow, 1, 1, 0, .none, 0⟩, ⟨.halt, 0, 0, 0, .none, 0⟩]
  status := { useFlagCache := true }
  database := default

def counted : Machine := performAll [.call .run, .call .run] (ofSetup counting)

end Request

end QueryMachine
