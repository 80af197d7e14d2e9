import Mathlib
import QueryMachine.Bank.Register
import QueryMachine.Proofs.Knowing
import QueryMachine.Proofs.Words

/-!
Banks where nothing may be known. There the accesses to a cell are plain reads and writes; what they
leave in the ledger is never looked at.
-/

namespace QueryMachine

/-- There is a run, so that nothing is held outside of it. -/
def Holder.Ongoing (h : Holder) : Prop := h.inside.isSome = true ∧ h.outside = none

theorem Holder.Ongoing.holding {h : Holder} (hh : h.Ongoing) (s : Sheet) : (h.holding s).Ongoing := by
  simpa [Holder.Ongoing, Holder.holding, hh.1] using hh.2

namespace Bank

variable {α β : Type} {b b₁ b₂ : Bank} {s : Sheet} {l : Ledger} {i : Nat}

/-- During a run in which nothing may be known the current sheet is always the blank one. -/
structure Unaware (b : Bank) (s : Sheet) : Prop extends b.Keeps s where
  off : b.holder.useCache = false
  ongoing : b.holder.Ongoing

theorem Unaware.of_notes (h : b.Unaware s) {facts : List Fact} (hn : b.Notes facts b₁) :
    ∃ l, b₁ = b.knowing s l ∧ b₁.Unaware s := by
  obtain ⟨t, l, rfl, hk, _⟩ := hn
  have hoff : (b.knowing t l).holder.useCache = false := by
    simpa [Bank.knowing] using h.off
  have ht : t = s := by
    rw [hk.unused hoff, h.unused h.off]
    simp [Bank.knowing]
  subst ht
  exact ⟨l, rfl, hk, hoff, h.ongoing.holding _⟩

theorem Unaware.withCell (h : b.Unaware s) (i : Nat) (c : Cell) : (b.withCell i c).Unaware s :=
  ⟨h.toKeeps.withCell i c, h.off, h.ongoing⟩

theorem Unaware.inside (h : b.Unaware s) : b.holder.inside = some (some s) := by
  obtain ⟨t, ht⟩ := Option.isSome_iff_exists.mp h.ongoing.1
  have hcurrent := h.current
  rw [Holder.current?, ht] at hcurrent
  rw [ht, ← hcurrent]

theorem Unaware.fact (h : b.Unaware s) (i : Nat) : s.fact i = {} := h.fact_unused h.off i

/-- The rule answers `a` and turns the bank into `b₁`, whatever the ledger holds. -/
def Does (s : Sheet) (x : BankM α) (b : Bank) (a : α) (b₁ : Bank) : Prop :=
  ∀ l, (b.knowing s l).Unaware s →
    ∃ l₁, x (b.knowing s l) = .ok a (b₁.knowing s l₁) ∧ (b₁.knowing s l₁).Unaware s

theorem Does.bind {x : BankM α} {f : α → BankM β} {a : α} {c : β} (hx : Does s x b a b₁)
    (hf : Does s (f a) b₁ c b₂) : Does s (x >>= f) b c b₂ := by
  intro l hl
  obtain ⟨l₁, hrun, hl₁⟩ := hx l hl
  rw [bind_of_ok hrun]
  exact hf l₁ hl₁

theorem Does.rest {x : BankM α} {f : α → BankM β} {a : α} {r : EStateM.Result Fault Bank β}
    (hx : Does s x b a b₁) (hl : (b.knowing s l).Unaware s) (h : (x >>= f) (b.knowing s l) = r) :
    ∃ l₁, (b₁.knowing s l₁).Unaware s ∧ f a (b₁.knowing s l₁) = r := by
  obtain ⟨l₁, hrun, hl₁⟩ := hx l hl
  exact ⟨l₁, hl₁, by rw [← h, bind_of_ok hrun]⟩

theorem does_pure (a : α) : Does s (pure a) b a b := fun l hl => ⟨l, rfl, hl⟩

theorem does_of_notes {x : BankM α} {a : α}
    (h : ∀ l, (b.knowing s l).Unaware s → ∃ facts b', x (b.knowing s l) = .ok a b' ∧
      (b₁.knowing s l).Notes facts b' ∧ (b₁.knowing s l).Unaware s) : Does s x b a b₁ := by
  intro l hl
  obtain ⟨facts, b', hrun, hn, hl₁⟩ := h l hl
  obtain ⟨l₁, rfl, hu⟩ := hl₁.of_notes hn
  rw [knowing_knowing] at hrun hu
  exact ⟨l₁, hrun, hu⟩

theorem does_flags (i : Nat) : Does s (flags i) b (b.cellAt i).flags b := by
  apply does_of_notes
  intro l hl
  obtain ⟨b', hrun, hn⟩ := hl.flags_run (i := i) (by simp [hl.fact, Fact.flags?, Known.nothing])
  exact ⟨_, b', hrun, hn, hl⟩

theorem does_isDynamic (i : Nat) : Does s (isDynamic i) b (b.cellAt i).flags.dynamic b :=
  (does_flags i).bind (does_pure _)

theorem does_setFlags (hi : i < b.cells.size) (g : Flags) :
    Does s (setFlags i g) b () (b.withCell i ((b.cellAt i).withFlags g)) := by
  apply does_of_notes
  intro l hl
  obtain ⟨b', hrun, hn⟩ := hl.noteFlags_run (i := i) (g := g) hi
    (by simp [hl.fact, Fact.flags?, Known.nothing]) (fun h : true = false => nomatch h)
  exact ⟨_, b', hrun, hn, hl.withCell i _⟩

theorem does_retype (hi : i < b.cells.size) (kind : Flags) :
    Does s (retype i kind) b () (b.withCell i ((b.cellAt i).withFlags ((b.cellAt i).flags.retype kind))) :=
  (does_flags i).bind (does_setFlags hi _)

theorem does_int (i : Nat) : Does s (int i) b (b.cellAt i).int b := by
  intro l hl
  refine ⟨l, ?_, hl⟩
  rw [hl.int_run, hl.fact]
  rfl

theorem does_real (i : Nat) : Does s (real i) b (.real (b.cellAt i).real) b := by
  intro l hl
  refine ⟨l, ?_, hl⟩
  rw [hl.real_run, hl.fact]
  rfl

theorem does_setInt (i : Nat) {n : Int} (hn : fitsWord n = true) (constant : Bool) :
    Does s (setInt i n constant) b () (b.withCell i ((b.cellAt i).withPayload (intToWord n))) := by
  apply does_of_notes
  intro l hl
  obtain ⟨b', hrun, hn⟩ := hl.setInt_run i hn constant
  exact ⟨_, b', hrun, hn, hl.withCell i _⟩

theorem does_setReal (i : Nat) (x : Number) :
    Does s (setReal i x false) b () (b.withCell i ((b.cellAt i).withPayload x.toDouble.bits)) := by
  apply does_of_notes
  intro l hl
  obtain ⟨b', hrun, hn⟩ := hl.setReal_run i (x := x) (fun h : false = true => nomatch h)
  exact ⟨_, b', hrun, hn, hl.withCell i _⟩

theorem does_setConstantReal (i : Nat) {x : Number} (hx : x.Plain) :
    Does s (setReal i x true) b () (b.withCell i ((b.cellAt i).withPayload x.toDouble.bits)) := by
  apply does_of_notes
  intro l hl
  obtain ⟨b', hrun, hn⟩ := hl.setReal_run i (x := x) (fun _ : true = true => hx)
  exact ⟨_, b', hrun, hn, hl.withCell i _⟩

theorem does_isConstantInt (i : Nat) : Does s (isConstantInt i) b false b := by
  intro l hl
  refine ⟨l, ?_, hl⟩
  simp only [isConstantInt, bind_of_ok get_run, hl.indexed, if_true, bind_of_ok hl.current_run, hl.fact]
  rfl

theorem does_invalidate (i : Nat) : Does s (invalidate i) b () b := by
  apply does_of_notes
  intro l hl
  obtain ⟨b', hrun, hn⟩ := hl.invalidate_run i
  exact ⟨_, b', hrun, hn, hl⟩

theorem does_forgetFact (i : Nat) : Does s (forgetFact i) b () b := by
  apply does_of_notes
  intro l hl
  obtain ⟨b', hrun, hn⟩ := hl.forgetFact_run i
  exact ⟨_, b', hrun, hn, hl⟩

theorem does_forgetAll : Does s forgetAll b () b := by
  apply does_of_notes
  intro l hl
  obtain ⟨b', hrun, hn⟩ := hl.forgetAll_run
  exact ⟨_, b', hrun, hn, hl⟩

theorem does_cell (i : Nat) : Does s (cell i) b (b.cellAt i) b := fun l hl => ⟨l, rfl, hl⟩

theorem does_modifyCell (i : Nat) (f : Cell → Cell) :
    Does s (modifyCell i f) b () (b.withCell i (f (b.cellAt i))) :=
  fun l hl => ⟨l, rfl, hl.withCell i _⟩

theorem does_releaseExtern (i : Nat) :
    Does s (releaseExtern i) b () (b.withCell i (b.cellAt i).released) := by
  refine (does_isDynamic i).bind ?_
  unfold Cell.released
  cases (b.cellAt i).flags.dynamic with
  | true => exact (does_modifyCell i Cell.clearExtern).bind (does_invalidate i)
  | false =>
    rw [if_neg Bool.false_ne_true, if_neg Bool.false_ne_true, withCell_cellAt]
    exact does_pure ()

theorem put_knowing (b : Bank) (s : Sheet) (l : Ledger) (i : Nat) (c : Cell) :
    (b.knowing s l).put i c = (b.put i c).knowing s l := by
  rw [put, put, cellAt_knowing]
  by_cases ho : c.overwrites (b.cellAt i) = true
  · rw [if_pos ho, if_pos ho]
    rfl
  · rw [if_neg ho, if_neg ho]
    rfl

theorem Unaware.put (h : b.Unaware s) (i : Nat) (c : Cell) : (b.put i c).Unaware s where
  toKeeps := h.toKeeps.put i c
  off := by rw [holder_put]; exact h.off
  ongoing := by rw [holder_put]; exact h.ongoing

theorem Unaware.renewed (h : b.Unaware s) : b.renewed.Unaware s :=
  ⟨h.toKeeps.renewed, h.off, h.ongoing⟩

theorem does_modifyCellWith (i : Nat) (f : Nat → Cell → Cell) :
    Does s (modifyCellWith i f) b () (b.renewed.put i (f b.fresh (b.cellAt i))) := by
  intro l hl
  refine ⟨l, ?_, ?_⟩
  · rw [modifyCellWith_run, ← put_knowing]
    rfl
  · rw [← put_knowing]
    exact hl.renewed.put i _

theorem does_direct (i : Nat) (rule : Nat → Cell → Cell) :
    Does s (direct i rule) b () (b.renewed.put i (rule b.fresh (b.cellAt i))) :=
  (does_invalidate i).bind (does_modifyCellWith i rule)

theorem does_expandBlob (i : Nat) :
    Does s (expandBlob i) b () (if (b.cellAt i).flags.zero then
      b.renewed.put i ((b.cellAt i).expandBlob b.fresh) else b) := by
  refine (does_flags i).bind ?_
  cases (b.cellAt i).flags.zero with
  | true => exact does_direct i Cell.expandBlob
  | false => exact does_pure ()

theorem does_forM {γ : Type} {xs : List γ} {f : γ → BankM PUnit}
    (h : ∀ a ∈ xs, Does s (f a) b ⟨⟩ b) : Does s (forM xs f) b ⟨⟩ b := by
  induction xs with
  | nil => exact does_pure _
  | cons a xs ih =>
    rw [List.forM_cons]
    exact (h a List.mem_cons_self).bind (ih fun c hc => h c (List.mem_cons_of_mem a hc))

theorem does_checkFacts (i : Nat) : Does s (checkFacts i) b () b := by
  intro l hl
  refine ⟨l, ?_, hl⟩
  simp only [checkFacts, bind_of_ok get_run, hl.indexed, if_true, bind_of_ok hl.current_run, hl.fact]
  rfl

theorem does_forgetAt {i : Int} (h0 : 0 ≤ i) (hi : i < b.cells.size) :
    Does s (forgetAt i) b () b := by
  intro l hl
  have hlt : i < s.facts.length := by rw [hl.width]; exact hi
  have hposition : withLedger (s.position i) (b.knowing s l) = .ok i.toNat (b.knowing s l) := by
    simp only [withLedger, Sheet.position, wrapIndex?, h0, hlt, if_true]
    rfl
  simp only [forgetAt, bind_of_ok hl.current_run, bind_of_ok hposition]
  exact does_forgetFact i.toNat l hl

theorem register_bind_eq_ok {i : Int} (h0 : 0 ≤ i) {f : Nat → BankM β} {c : β}
    (h : (register i >>= f) b = .ok c b₁) : i.toNat < b.reach ∧ f i.toNat b = .ok c b₁ := by
  by_cases hi : i < b.reach
  · have hrun : register i b = .ok i.toNat b := by
      simp only [register, bind_of_ok get_run, wrapIndex?, h0, hi, if_true]
      rfl
    rw [bind_of_ok hrun] at h
    exact ⟨by omega, h⟩
  · have hrun : register i b = .error .unknownRegister b := by
      simp only [register, bind_of_ok get_run, wrapIndex?, h0, hi, if_true, if_false]
      rfl
    rw [bind_of_error hrun] at h
    cases h

theorem setInt_bind_eq_ok {n : Int} {constant : Bool} {f : Unit → BankM β} {c : β}
    (h : (setInt i n constant >>= f) b = .ok c b₁) : fitsWord n = true := by
  by_contra hn
  rw [bind_of_error (setInt_run_of_not_fits b i (by simpa using hn) constant)] at h
  cases h

end Bank

end QueryMachine
