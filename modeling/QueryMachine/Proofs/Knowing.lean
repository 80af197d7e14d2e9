import Mathlib
import QueryMachine.Proofs.Cells
import QueryMachine.Proofs.Sheets

/-!
What the accesses to a bank do to its cells and to its current sheet, with knowledge and without.
-/

namespace QueryMachine

namespace Holder

def holding (h : Holder) (s : Sheet) : Holder :=
  if h.inside.isSome then { h with inside := some (some s) } else { h with outside := some s }

variable (h : Holder) (s t : Sheet)

@[simp] theorem holding_current? : (h.holding s).current? = some s := by
  unfold holding
  cases h.inside <;> simp [current?]

@[simp] theorem holding_blank : (h.holding s).blank = h.blank := by
  unfold holding
  split <;> rfl

@[simp] theorem holding_useCache : (h.holding s).useCache = h.useCache := by
  unfold holding
  split <;> rfl

@[simp] theorem holding_holding : (h.holding s).holding t = h.holding t := by
  unfold holding
  cases h.inside <;> simp

variable {h s} in
theorem holding_current (hs : h.current? = some s) : h.holding s = h := by
  obtain ⟨blank, outside, inside, useCache⟩ := h
  cases inside <;> simp_all [holding, current?]

/-- Another holder with the same current sheet. -/
structure Turns (h h₁ : Holder) : Prop where
  current : h₁.current? = h.current?
  blank : h₁.blank = h.blank
  useCache : h₁.useCache = h.useCache

end Holder

namespace Bank

/-- The bank with other knowledge about the same cells. -/
def knowing (b : Bank) (s : Sheet) (l : Ledger) : Bank :=
  { b with holder := b.holder.holding s, ledger := l }

@[simp] theorem knowing_knowing (b : Bank) (s t : Sheet) (l k : Ledger) :
    (b.knowing s l).knowing t k = b.knowing t k := by
  simp [knowing]

@[simp] theorem cellAt_knowing (b : Bank) (s : Sheet) (l : Ledger) (i : Nat) :
    (b.knowing s l).cellAt i = b.cellAt i := rfl

/-- The current sheet of the bank is `s`, and changes of it do not fail. -/
structure Keeps (b : Bank) (s : Sheet) : Prop where
  indexed : b.indexed = true
  current : b.holder.current? = some s
  plain : s.Plain
  width : s.facts.length = b.cells.size
  ledger : b.ledger.Plain
  blank : b.holder.blank.facts = List.replicate b.cells.size {}
  unused : b.holder.useCache = false → s = b.holder.blank

/-- There is a current sheet, and changes of it do not fail. -/
def Kept (b : Bank) : Prop := ∃ s, b.Keeps s

theorem replicate_plain (n : Nat) : ∀ f ∈ List.replicate n ({} : Fact), f.Plain := by
  intro f hf
  rw [List.eq_of_mem_replicate hf]
  rfl

theorem size_foldl_set (xs : List (Nat × Cell)) (cells : Array Cell) :
    (xs.foldl (fun cells x => cells.setIfInBounds x.1 x.2) cells).size = cells.size := by
  induction xs generalizing cells with
  | nil => rfl
  | cons x xs ih => rw [List.foldl_cons, ih, Array.size_setIfInBounds]

theorem keeps_ofCells (cells : Array Cell) (useCache : Bool) (fresh : Nat) :
    (ofCells cells useCache true fresh).Keeps ⟨0, List.replicate cells.size {}⟩ where
  indexed := rfl
  current := rfl
  plain := replicate_plain _
  width := by simp [ofCells]
  ledger t ht := by simp [ofCells] at ht
  blank := rfl
  unused _ := rfl

/-- What is known after something was to be noted: nothing, where no knowledge is used. -/
def noted (b : Bank) (facts : List Fact) : List Fact :=
  if b.holder.useCache then facts else List.replicate b.cells.size {}

def Notes (b : Bank) (facts : List Fact) (b' : Bank) : Prop :=
  ∃ s l, b' = b.knowing s l ∧ b'.Keeps s ∧ s.Shows (b.noted facts)

variable {b b' : Bank} {s : Sheet} {facts : List Fact}

theorem Keeps.blank_plain (h : b.Keeps s) : b.holder.blank.Plain := by
  unfold Sheet.Plain
  rw [h.blank]
  exact replicate_plain _

theorem Keeps.current_run (h : b.Keeps s) : Bank.current b = .ok s b := by
  simp only [Bank.current, Bank.current?, bind, EStateM.bind, get_run, pure_run, h.current]
  rfl

theorem Keeps.knowing (h : b.Keeps s) {t : Sheet} {l : Ledger} (ht : t.Plain)
    (hw : t.facts.length = b.cells.size) (hl : l.Plain)
    (hu : b.holder.useCache = false → t = b.holder.blank) : (b.knowing t l).Keeps t where
  indexed := h.indexed
  current := by simp [Bank.knowing]
  plain := ht
  width := hw
  ledger := hl
  blank := by simpa [Bank.knowing] using h.blank
  unused := by simpa [Bank.knowing] using hu

theorem remember_run (b : Bank) (t : Sheet) :
    remember (some t) b =
      .ok () { b with holder := b.holder.holding (if b.holder.useCache then t else b.holder.blank) } := by
  simp only [remember, modifyHolder, modify_run, Holder.holding]
  split <;> split <;> rfl

theorem withLedger_run {α : Type} {x : LedgerM α} {a : α} {l : Ledger} (h : x b.ledger = .ok a l) :
    withLedger x b = .ok a { b with ledger := l } := by
  simp only [withLedger, h]

theorem Keeps.note (h : b.Keeps s) {x : LedgerM Sheet} (hx : Sheet.Yields x facts)
    (hw : facts.length = b.cells.size) :
    ∃ b', (do remember (← withLedger x)) b = .ok () b' ∧ b.Notes facts b' := by
  obtain ⟨t, l, hrun, hl, ht⟩ := hx b.ledger h.ledger
  have hrem := remember_run { b with ledger := l } t
  refine ⟨_, (bind_of_ok (withLedger_run hrun)).trans hrem, ?_⟩
  cases hc : b.holder.useCache with
  | true =>
    refine ⟨t, l, by simp [Bank.knowing], ?_, by simpa [noted, hc] using ht⟩
    simpa [Bank.knowing] using
      h.knowing ht.plain (ht.like.length_eq.trans hw) hl (by simp [hc])
  | false =>
    refine ⟨b.holder.blank, l, by simp [Bank.knowing], ?_, ?_⟩
    · simpa [Bank.knowing] using
        h.knowing h.blank_plain (by simp [h.blank]) hl (fun _ => rfl)
    · have : b.noted facts = b.holder.blank.facts := by simp [noted, hc, h.blank]
      rw [this]
      exact h.blank_plain.shows

theorem Keeps.knowing_self (h : b.Keeps s) : b.knowing s b.ledger = b := by
  simp only [Bank.knowing, Holder.holding_current h.current]

theorem Keeps.notes_self (h : b.Keeps s) : b.Notes s.facts b := by
  refine ⟨s, b.ledger, h.knowing_self.symm, h, ?_⟩
  · cases hc : b.holder.useCache with
    | true => simpa [noted, hc] using h.plain.shows
    | false =>
      have : b.noted s.facts = s.facts := by simp [noted, hc, h.unused hc, h.blank]
      rw [this]
      exact h.plain.shows

theorem Keeps.notes_unused (h : b.Keeps s) (hc : b.holder.useCache = false) (facts : List Fact) :
    b.Notes facts b := by
  obtain ⟨t, l, hb, hk, hs⟩ := h.notes_self
  refine ⟨t, l, hb, hk, ?_⟩
  simpa [noted, hc] using hs

theorem Keeps.width_modify (h : b.Keeps s) (i : Nat) (g : Fact → Fact) :
    (s.facts.modify i g).length = b.cells.size := by
  rw [List.length_modify, h.width]

theorem Keeps.withCell (h : b.Keeps s) (i : Nat) (c : Cell) : (b.withCell i c).Keeps s where
  indexed := h.indexed
  current := h.current
  plain := h.plain
  width := by rw [size_withCell, h.width]
  ledger := h.ledger
  blank := by rw [size_withCell]; exact h.blank
  unused := h.unused

theorem Keeps.put (h : b.Keeps s) (i : Nat) (c : Cell) : (b.put i c).Keeps s where
  indexed := by rw [indexed_put]; exact h.indexed
  current := by rw [holder_put]; exact h.current
  plain := h.plain
  width := by rw [size_put]; exact h.width
  ledger := by rw [ledger_put]; exact h.ledger
  blank := by rw [holder_put, size_put]; exact h.blank
  unused := by rw [holder_put]; exact h.unused

theorem Keeps.renewed (h : b.Keeps s) : b.renewed.Keeps s :=
  ⟨h.indexed, h.current, h.plain, h.width, h.ledger, h.blank, h.unused⟩

theorem Keeps.carry (h : b.Keeps s) (hholder : b'.holder = b.holder) (hledger : b'.ledger = b.ledger)
    (hindexed : b'.indexed = b.indexed) (hsize : b'.cells.size = b.cells.size) : b'.Keeps s where
  indexed := hindexed.trans h.indexed
  current := by rw [hholder]; exact h.current
  plain := h.plain
  width := by rw [hsize]; exact h.width
  ledger := by rw [hledger]; exact h.ledger
  blank := by rw [hholder, hsize]; exact h.blank
  unused := by rw [hholder]; exact h.unused

theorem Keeps.turned (h : b.Keeps s) {o : Holder} (ht : b.holder.Turns o) :
    ({ b with holder := o } : Bank).Keeps s where
  indexed := h.indexed
  current := ht.current.trans h.current
  plain := h.plain
  width := h.width
  ledger := h.ledger
  blank := (congrArg Sheet.facts ht.blank).trans h.blank
  unused hu := (h.unused (ht.useCache ▸ hu)).trans ht.blank.symm

theorem Keeps.blank_outside (h : b.Keeps s) (hin : b.holder.inside = none) :
    ({ b with holder := { b.holder with outside := some b.holder.blank } } : Bank).Keeps b.holder.blank where
  indexed := h.indexed
  current := by
    rw [Holder.current?]
    simp only [hin]
  plain := h.blank_plain
  width := by rw [h.blank, List.length_replicate]
  ledger := h.ledger
  blank := h.blank
  unused _ := rfl

theorem Notes.keeps (h : b.Notes facts b') : ∃ t, b'.Keeps t ∧ t.Shows (b.noted facts) := by
  obtain ⟨t, l, _, hk, hs⟩ := h
  exact ⟨t, hk, hs⟩

theorem Notes.cellAt (h : b.Notes facts b') (i : Nat) : b'.cellAt i = b.cellAt i := by
  obtain ⟨t, l, rfl, _, _⟩ := h
  rfl

theorem Notes.withCell (h : b.Notes facts b') (i : Nat) (c : Cell) :
    (b.withCell i c).Notes facts (b'.withCell i c) := by
  obtain ⟨t, l, rfl, hk, hs⟩ := h
  refine ⟨t, l, rfl, hk.withCell i c, ?_⟩
  simpa [noted] using hs

theorem Keeps.fact_unused (h : b.Keeps s) (hc : b.holder.useCache = false) (j : Nat) :
    s.fact j = {} := by
  rw [Sheet.fact, h.unused hc, h.blank, Sheet.getD_blank]

/-- Noting something about one cell changes its fact, if anything is noted at all, and no other. -/
theorem Keeps.fact_noted (h : b.Keeps s) {t : Sheet} {i : Nat} (hi : i < b.cells.size)
    {g : Fact → Fact} (hs : t.Shows (b.noted (s.facts.modify i g))) (j : Nat) :
    (t.fact j).Like (if i = j ∧ b.holder.useCache = true then g (s.fact i) else s.fact j) := by
  have hlike := hs.fact j
  unfold noted at hlike
  split at hlike
  · rename_i hc
    rw [Sheet.getD_modify (by rw [h.width]; exact hi)] at hlike
    simpa only [hc, and_true] using hlike
  · rename_i hc
    rw [Sheet.getD_blank] at hlike
    rwa [if_neg (fun hij => hc hij.2), h.fact_unused (by simpa using hc)]

/-! Accesses. -/

variable {i : Nat}

theorem Keeps.flags_run (h : b.Keeps s)
    (ht : ∀ g, (s.fact i).flags? = some g → g = (b.cellAt i).flags) :
    ∃ b', flags i b = .ok (b.cellAt i).flags b' ∧
      b.Notes (s.facts.modify i (Fact.noteFlags (b.cellAt i).flags)) b' := by
  simp only [flags, bind_of_ok (cell_run b i), bind_of_ok get_run, h.indexed, if_true,
    bind_of_ok h.current_run]
  cases hk : (s.fact i).known.flags with
  | true =>
    have hf : (s.fact i).flags = (b.cellAt i).flags := ht _ (by simp [Fact.flags?, hk])
    rw [← hf, Sheet.modify_noteFlags_of_known hk]
    refine ⟨b, ?_, h.notes_self⟩
    simp [check, hf, pure_run]
  | false =>
    simp only [Bool.false_eq_true, if_false]
    obtain ⟨b', hrun, hn⟩ := h.note (Sheet.setFlags_yields h.plain i (b.cellAt i).flags)
      (h.width_modify i _)
    refine ⟨b', ?_, hn⟩
    rw [← bind_assoc, bind_of_ok hrun, pure_run]

theorem Keeps.flags_run_of_false (h : b.Keeps s) {g : Flags} (hg : (s.fact i).flags? = some g)
    (hne : g ≠ (b.cellAt i).flags) : flags i b = .error (.assertion "") b := by
  have hk : (s.fact i).known.flags = true := by
    by_contra hk
    simp [Fact.flags?, hk] at hg
  have hf : (s.fact i).flags = g := by simpa [Fact.flags?, hk] using hg
  simp only [flags, bind_of_ok (cell_run b i), bind_of_ok get_run, h.indexed, if_true,
    bind_of_ok h.current_run, hk, hf]
  exact bind_of_error (by simp [check, hne, throw_run])

/-- Marks that are known already are not written again, so the cell has to have them. -/
theorem Keeps.noteFlags_run_of (h : b.Keeps s) (hi : i < b.cells.size) {write : Bool} {g : Flags}
    (ht : (s.fact i).flags? = some g → (b.cellAt i).flags = g)
    (hw : write = false → (b.cellAt i).flags = g) :
    ∃ b', noteFlags write i g b = .ok () b' ∧
      (b.withCell i ((b.cellAt i).withFlags g)).Notes (s.facts.modify i (Fact.noteFlags g)) b' := by
  have unchanged (hc : (b.cellAt i).flags = g) : b.withCell i ((b.cellAt i).withFlags g) = b := by
    rw [← hc]
    exact withCell_cellAt b i
  simp only [noteFlags, bind_of_ok get_run, h.indexed, if_true, bind_of_ok h.current_run]
  by_cases hk : ((s.fact i).known.flags && (s.fact i).flags == g) = true
  · rw [if_pos hk]
    simp only [Bool.and_eq_true, beq_iff_eq] at hk
    have hc : (b.cellAt i).flags = g := ht (by simp [Fact.flags?, hk.1, hk.2])
    rw [unchanged hc, ← hk.2, Sheet.modify_noteFlags_of_known hk.1]
    exact ⟨b, rfl, h.notes_self⟩
  · rw [if_neg hk]
    have put : (if write = true then modifyCell i fun c => { c with flags := g } else pure ()) b =
        .ok () (b.withCell i ((b.cellAt i).withFlags g)) := by
      cases write with
      | true => rfl
      | false =>
        rw [unchanged (hw rfl)]
        rfl
    have hb := h.withCell i ((b.cellAt i).withFlags g)
    have hcell : ((b.withCell i ((b.cellAt i).withFlags g)).cellAt i).flags = g := by
      rw [cellAt_withCell hi, if_pos rfl]
      rfl
    have hlt : i < s.facts.length := by rw [h.width]; exact hi
    rw [bind_of_ok put, bind_of_ok get_run]
    generalize b.withCell i ((b.cellAt i).withFlags g) = c at hb hcell ⊢
    cases hc : c.holder.useCache with
    | false => exact ⟨c, rfl, hb.notes_unused hc _⟩
    | true =>
      obtain ⟨b', hrun, hn⟩ := hb.note (Sheet.setFlags_yields hb.plain i g) (hb.width_modify i _)
      refine ⟨b', ?_, hn⟩
      obtain ⟨t, ht', hs⟩ := hn.keeps
      have hlike := hs.fact i
      rw [noted, if_pos hc, Sheet.getD_modify hlt, if_pos rfl] at hlike
      rw [if_pos rfl, ← bind_assoc, bind_of_ok hrun, bind_of_ok ht'.current_run,
        bind_of_ok (cell_run b' i)]
      simp [check, hlike.known, hlike.flags, Fact.noteFlags, hn.cellAt, hcell, pure_run]

theorem Keeps.noteFlags_run (h : b.Keeps s) (hi : i < b.cells.size) {write : Bool} {g : Flags}
    (ht : ∀ g, (s.fact i).flags? = some g → g = (b.cellAt i).flags)
    (hw : write = false → (b.cellAt i).flags = g) :
    ∃ b', noteFlags write i g b = .ok () b' ∧
      (b.withCell i ((b.cellAt i).withFlags g)).Notes (s.facts.modify i (Fact.noteFlags g)) b' :=
  h.noteFlags_run_of hi (fun hg => (ht g hg).symm) hw

theorem Keeps.int_run (h : b.Keeps s) (i : Nat) :
    int i b = .ok ((s.fact i).int?.getD (b.cellAt i).int) b := by
  simp only [int, bind_of_ok (cell_run b i), bind_of_ok get_run, h.indexed, if_true,
    bind_of_ok h.current_run, Fact.int?, pure_run]
  split
  · rfl
  · split <;> rfl

theorem Keeps.real_run (h : b.Keeps s) (i : Nat) :
    real i b = .ok ((s.fact i).real?.getD (.real (b.cellAt i).real)) b := by
  simp only [real, bind_of_ok (cell_run b i), bind_of_ok get_run, h.indexed, if_true,
    bind_of_ok h.current_run, Fact.real?, pure_run]
  split
  · rfl
  · split <;> rfl

theorem Keeps.setInt_run (h : b.Keeps s) (i : Nat) {n : Int} (hn : fitsWord n = true)
    (constant : Bool) :
    ∃ b', setInt i n constant b = .ok () b' ∧
      (b.withCell i ((b.cellAt i).withPayload (intToWord n))).Notes
        (s.facts.modify i (if constant then Fact.noteInt n else Fact.dropInt)) b' := by
  have hb := h.withCell i ((b.cellAt i).withPayload (intToWord n))
  have put : modifyCell i (fun c => { c with payload := intToWord n }) b =
      .ok () (b.withCell i ((b.cellAt i).withPayload (intToWord n))) := rfl
  simp only [setInt, hn, Bool.not_true, Bool.false_eq_true, if_false, bind_of_ok put,
    bind_of_ok get_run, hb.indexed, if_true, bind_of_ok hb.current_run]
  cases constant with
  | true => exact hb.note (Sheet.setConstantInt_yields hb.plain i n) (hb.width_modify i _)
  | false =>
    exact hb.note (Sheet.setKnown_yields_of hb.plain i fun k =>
      { k with int := false, constant := false }) (hb.width_modify i _)

theorem setInt_run_of_not_fits (b : Bank) (i : Nat) {n : Int} (hn : fitsWord n = false)
    (constant : Bool) : setInt i n constant b = .error .integerRange b := by
  simp only [setInt, hn]
  rfl

theorem Keeps.setReal_run (h : b.Keeps s) (i : Nat) {x : Number} {constant : Bool}
    (hx : constant = true → x.Plain) :
    ∃ b', setReal i x constant b = .ok () b' ∧
      (b.withCell i ((b.cellAt i).withPayload x.toDouble.bits)).Notes
        (s.facts.modify i (if constant then Fact.noteReal x else Fact.dropReal)) b' := by
  have hb := h.withCell i ((b.cellAt i).withPayload x.toDouble.bits)
  have put : modifyCell i (fun c => { c with payload := x.toDouble.bits }) b =
      .ok () (b.withCell i ((b.cellAt i).withPayload x.toDouble.bits)) := rfl
  simp only [setReal, bind_of_ok put, bind_of_ok get_run, hb.indexed, if_true,
    bind_of_ok hb.current_run]
  cases constant with
  | true => exact hb.note (Sheet.setConstantReal_yields hb.plain i (hx rfl)) (hb.width_modify i _)
  | false =>
    exact hb.note (Sheet.setKnown_yields_of hb.plain i fun k =>
      { k with real := false, constant := false }) (hb.width_modify i _)

theorem Keeps.setReal_run_of_not_finite (h : b.Keeps s) (hi : i < b.cells.size) {x : Double}
    (hx : x.isFinite = false) :
    ∃ l, setReal i (.real x) true b = .error (if x.isNaN then .badValue else .integerRange)
      { b.withCell i ((b.cellAt i).withPayload x.bits) with ledger := l } ∧ l.Plain := by
  have hb := h.withCell i ((b.cellAt i).withPayload x.bits)
  have put : modifyCell i (fun c => { c with payload := (Number.real x).toDouble.bits }) b =
      .ok () (b.withCell i ((b.cellAt i).withPayload x.bits)) := rfl
  obtain ⟨l, hrun, hl⟩ := Sheet.setConstantReal_of_not_finite hb.plain
    (by rw [hb.width, size_withCell]; exact hi) hx hb.ledger
  refine ⟨l, ?_, hl⟩
  rw [setReal, bind_of_ok put, bind_of_ok get_run, if_pos hb.indexed, bind_of_ok hb.current_run,
    if_pos rfl]
  apply bind_of_error
  simp only [withLedger, hrun]

theorem Keeps.setReal_run_infinite (h : b.Keeps s) (hi : i < b.cells.size) {x : Double}
    (hx : x.isInf = true) :
    ∃ l, setReal i (.real x) true b =
      .error .integerRange { b.withCell i ((b.cellAt i).withPayload x.bits) with ledger := l } := by
  have hinf : x.isFinite = false ∧ x.isNaN = false := by
    simp only [Double.isInf, beq_iff_eq] at hx
    simp [Double.isFinite, Double.isNaN, hx]
  obtain ⟨l, hrun, -⟩ := h.setReal_run_of_not_finite hi hinf.1
  rw [hinf.2] at hrun
  exact ⟨l, hrun⟩

theorem Keeps.forgetFact_run (h : b.Keeps s) (i : Nat) :
    ∃ b', forgetFact i b = .ok () b' ∧ b.Notes (s.facts.modify i Fact.forget) b' := by
  simp only [forgetFact, bind_of_ok h.current_run]
  exact h.note (Sheet.forget_yields h.plain i) (h.width_modify i _)

theorem Keeps.invalidate_run (h : b.Keeps s) (i : Nat) :
    ∃ b', invalidate i b = .ok () b' ∧ b.Notes (s.facts.modify i Fact.forget) b' := by
  simp only [invalidate, bind_of_ok get_run, h.indexed, if_true]
  exact h.forgetFact_run i

theorem Keeps.forgetAll_run (h : b.Keeps s) :
    ∃ b', forgetAll b = .ok () b' ∧ b.Notes (List.replicate b.cells.size {}) b' := by
  have yields : Sheet.Yields (pure b.holder.blank) (List.replicate b.cells.size {}) := by
    rw [← h.blank]
    exact .pure h.blank_plain.shows
  exact h.note yields (by simp)

end Bank

end QueryMachine
