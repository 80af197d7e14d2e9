import Mathlib
import QueryMachine.Machine.Run
import QueryMachine.Proofs.Machines
import QueryMachine.Proofs.Twins

/-!
The tracked and the direct rules of the instructions that choose the next instruction or copy registers
do the same, as far as registers can be seen, where nothing may be known.
-/

namespace QueryMachine

namespace Bank

/-- Two banks that show the same, in both of which nothing may be known. -/
def Mirrors (b b' : Bank) : Prop :=
  ∃ ρ live s s', b.Twins ρ live b' ∧ b.Unaware s ∧ b'.Unaware s'

/-- If the first rule gets through, the second one does the same. -/
def Follows {α : Type} (x y : BankM α) (b b' : Bank) : Prop :=
  ∀ a b₁, x b = .ok a b₁ → ∃ b₁', y b' = .ok a b₁' ∧ b₁.Mirrors b₁'

variable {α : Type} {b b' : Bank} {i : Instruction} {pc : Int} {s s' : Sheet} {ρ : Naming}
  {live : Nat → Prop} {l : Ledger}

theorem Does.eq {x : BankM α} {a c : α} {b₁ b₂ : Bank} (hx : Does s x b a b₁)
    (hl : (b.knowing s l).Unaware s) (h : x (b.knowing s l) = .ok c b₂) :
    c = a ∧ ∃ l₁, b₂ = b₁.knowing s l₁ ∧ b₂.Unaware s := by
  obtain ⟨l₁, hrun, hl₁⟩ := hx l hl
  rw [hrun] at h
  cases h
  exact ⟨rfl, l₁, rfl, hl₁⟩

/-- To follow a rule it is enough to do so from a bank with any ledger. -/
theorem Mirrors.follows (h : b.Mirrors b') {x y : BankM α}
    (hxy : ∀ ρ live s s' l, b.Twins ρ live b' → (b.knowing s l).Unaware s → b'.Unaware s' →
      ∀ a b₁, x (b.knowing s l) = .ok a b₁ → ∃ b₁', y b' = .ok a b₁' ∧ b₁.Mirrors b₁') :
    Follows x y b b' := by
  obtain ⟨ρ, live, s, s', ht, hu, hu'⟩ := h
  have hb := hu.knowing_self
  intro a b₁ hrun
  rw [← hb] at hrun
  exact hxy ρ live s s' b.ledger ht (hb.symm ▸ hu) hu' a b₁ hrun

theorem Mirrors.follows_register (h : b.Mirrors b') {j : Int} (h0 : 0 ≤ j) {x y : Nat → BankM α}
    (hxy : ∀ ρ live s s' l, b.Twins ρ live b' → j.toNat < b.cells.size → (b.knowing s l).Unaware s → b'.Unaware s' →
      ∀ a b₁, x j.toNat (b.knowing s l) = .ok a b₁ → ∃ b₁', y j.toNat b' = .ok a b₁' ∧ b₁.Mirrors b₁') :
    Follows (register j >>= x) (slot j >>= y) b b' := by
  refine h.follows fun ρ live s s' l ht hu hu' a b₁ hrun => ?_
  obtain ⟨hlt, hrun⟩ := register_bind_eq_ok h0 hrun
  obtain ⟨b₁', hrun', h₁⟩ := hxy ρ live s s' l ht (Nat.lt_of_lt_of_le hlt ht.fits) hu hu' a b₁ hrun
  exact ⟨b₁', (bind_of_ok (slot_run h0)).trans hrun', h₁⟩

theorem mirrors_of_twins {b₁ b₁' : Bank} (ht : b₁.Twins ρ live b₁') (hu : (b₁.knowing s l).Unaware s)
    (hu' : b₁'.Unaware s') : (b₁.knowing s l).Mirrors b₁' := by
  refine ⟨ρ, live, s, s', ?_, hu, hu'⟩
  have := ht.knowing s s' l b₁'.ledger
  rwa [hu'.knowing_self] at this

theorem isNull_follows (h : b.Mirrors b') (h0 : 0 ≤ i.p1) :
    Follows (Tracked.isNull i) (Direct.isNull i) b b' := by
  refine h.follows_register h0 fun ρ live s s' l ht hlt hu hu' a b₁ hrun => ?_
  obtain ⟨l, hl, hrun⟩ := (does_flags i.p1.toNat).rest hu hrun
  cases hrun
  refine ⟨b', ?_, mirrors_of_twins ht hl hu'⟩
  simp only [bind_of_ok (cell_run b' _), (ht.cells _).null]
  rfl

theorem notNull_follows (h : b.Mirrors b') (h0 : 0 ≤ i.p1) :
    Follows (Tracked.notNull i) (Direct.notNull i) b b' := by
  refine h.follows_register h0 fun ρ live s s' l ht hlt hu hu' a b₁ hrun => ?_
  obtain ⟨l, hl, hrun⟩ := (does_flags i.p1.toNat).rest hu hrun
  cases hrun
  refine ⟨b', ?_, mirrors_of_twins ht hl hu'⟩
  simp only [bind_of_ok (cell_run b' _), (ht.cells _).null]
  rfl

theorem returnTo_follows (h : b.Mirrors b') (h0 : 0 ≤ i.p1) :
    Follows (Tracked.returnTo i) (Direct.returnTo i) b b' := by
  refine h.follows_register h0 fun ρ live s s' l ht hlt hu hu' a b₁ hrun => ?_
  obtain ⟨l, hl, hrun⟩ := (does_flags i.p1.toNat).rest hu hrun
  obtain ⟨hint, hrun⟩ := check_bind_eq_ok hrun
  obtain ⟨l, hl, hrun⟩ := (does_int i.p1.toNat).rest hl hrun
  obtain ⟨l, hl, hrun⟩ := (does_setFlags hlt .onlyUndefined).rest hl hrun
  cases hrun
  have hflags : (b.cellAt i.p1.toNat).flags = .onlyInt := by simpa using hint
  have hc := ht.cells i.p1.toNat
  have hword : (b'.cellAt i.p1.toNat).int = (b.cellAt i.p1.toNat).int :=
    congrArg wordToInt (hc.word (.inl (by rw [hflags]; rfl)))
  refine ⟨b'.withCell i.p1.toNat ((b'.cellAt i.p1.toNat).withFlags .onlyUndefined), ?_,
    mirrors_of_twins (ht.withCell hlt ?_ ?_) hl (hu'.withCell _ _)⟩
  · simp only [bind_of_ok (cell_run b' _),
      bind_of_ok (modifyCell_run b' _ _), hword]
    rfl
  · exact (ht.sound _).untextual _ rfl rfl nofun nofun
  · exact hc.withFlags nofun (by simp [Flags.onlyUndefined]) rfl

theorem Twins.setWord (ht : b.Twins ρ live b') {r : Nat} (hr : r < b.cells.size) (p : UInt64) :
    (b.withCell r (((b.cellAt r).withFlags .onlyInt).withPayload p)).Twins ρ live
      (b'.withCell r (((b'.cellAt r).withFlags .onlyInt).withPayload p)) :=
  ht.withCell hr ((ht.sound r).untextual p rfl rfl (fun _ => rfl) nofun)
    ((ht.cells r).remark ⟨false, rfl, nofun⟩ (fun _ => rfl) nofun)

theorem initCoroutine_follows (h : b.Mirrors b') (h0 : 0 ≤ i.p1) :
    Follows (Tracked.initCoroutine i) (Direct.initCoroutine i) b b' := by
  refine h.follows_register h0 fun ρ live s s' l ht hlt hu hu' a b₁ hrun => ?_
  obtain ⟨l, hl, hrun⟩ := (does_isDynamic i.p1.toNat).rest hu hrun
  obtain ⟨_, hrun⟩ := check_bind_eq_ok hrun
  obtain ⟨l, hl, hrun⟩ := (does_setInt i.p1.toNat (setInt_bind_eq_ok hrun) true).rest hl hrun
  obtain ⟨l, hl, hrun⟩ := (does_setFlags (by rwa [size_withCell]) .onlyInt).rest hl hrun
  cases hrun
  rw [withCell_withCell, cellAt_withCell_self hlt] at hl ⊢
  exact ⟨_, rfl, mirrors_of_twins (ht.setWord hlt _) hl (hu'.withCell _ _)⟩

/-- The integer that a register shows, if it shows nothing else. -/
def shownInt? (b : Bank) (r : Nat) : Option Int :=
  match (b.cellAt r).view with
  | .parts none none none (some n) none => some n
  | _ => none

theorem shownInt?_eq_some {r : Nat} {n : Int} (h : b.shownInt? r = some n) :
    (b.cellAt r).flags.int = true ∧ (b.cellAt r).int = n := by
  unfold shownInt? at h
  split at h
  · rename_i k hview
    cases h
    revert hview
    unfold Content.view
    cases (b.cellAt r).flags.int <;> split_ifs <;> simp_all
  · cases h

/-- Whether a register shows an integer of 32 bits. -/
def counts (b : Bank) (r : Nat) : Bool :=
  (b.shownInt? r).any fun n => -2147483648 ≤ n && n ≤ 2147483647

theorem word_of_counts {r : Nat} (h : b.counts r = true) :
    (b.cellAt r).flags.int = true ∧ wrapHalf (b.cellAt r).int = (b.cellAt r).int := by
  obtain ⟨n, hshown, hn⟩ := (Option.any_eq_true _ _).mp h
  rw [Bool.and_eq_true, decide_eq_true_eq, decide_eq_true_eq] at hn
  obtain ⟨hint, rfl⟩ := shownInt?_eq_some hshown
  exact ⟨hint, Int.bmod_eq_of_le (by omega) (by omega)⟩

theorem Twins.int_eq (ht : b.Twins ρ live b') {r : Nat} (hi : (b.cellAt r).flags.int = true) :
    (b'.cellAt r).int = (b.cellAt r).int := congrArg wordToInt ((ht.cells r).word (.inl hi))

theorem yield_follows (h : b.Mirrors b') (h0 : 0 ≤ i.p1) (hc : b.counts i.p1.toNat = true) :
    Follows (Tracked.yield pc i) (Direct.yield pc i) b b' := by
  refine h.follows_register h0 fun ρ live s s' l ht hlt hu hu' a b₁ hrun => ?_
  obtain ⟨l, hl, hrun⟩ := (does_isDynamic i.p1.toNat).rest hu hrun
  obtain ⟨_, hrun⟩ := check_bind_eq_ok hrun
  obtain ⟨l, hl, hrun⟩ := (does_setFlags hlt .onlyInt).rest hl hrun
  obtain ⟨l, hl, hrun⟩ := (does_int i.p1.toNat).rest hl hrun
  obtain ⟨l, hl, hrun⟩ := (does_setInt i.p1.toNat (setInt_bind_eq_ok hrun) true).rest hl hrun
  cases hrun
  rw [withCell_withCell, cellAt_withCell_self hlt] at hl ⊢
  refine ⟨_, ?_, mirrors_of_twins (ht.setWord hlt _) hl (hu'.withCell _ _)⟩
  simp only [bind_of_ok (cell_run b' _),
    bind_of_ok (modifyCell_run b' _ _), ht.int_eq (word_of_counts hc).1, (word_of_counts hc).2]
  rfl

theorem ifPos_follows (h : b.Mirrors b') (h0 : 0 ≤ i.p1) (hc : b.counts i.p1.toNat = true) :
    Follows (Tracked.ifPos i) (Direct.ifPos i) b b' := by
  refine h.follows_register h0 fun ρ live s s' l ht hlt hu hu' a b₁ hrun => ?_
  obtain ⟨l, hl, hrun⟩ := (does_int i.p1.toNat).rest hu hrun
  cases hrun
  refine ⟨b', ?_, mirrors_of_twins ht hl hu'⟩
  simp only [bind_of_ok (cell_run b' _), ht.int_eq (word_of_counts hc).1]
  rfl

theorem ifZero_follows (h : b.Mirrors b') (h0 : 0 ≤ i.p1) :
    Follows (Tracked.ifZero i) (Direct.ifZero i) b b' := by
  refine h.follows_register h0 fun ρ live s s' l ht hlt hu hu' a b₁ hrun => ?_
  obtain ⟨l, hl, hrun⟩ := (does_flags i.p1.toNat).rest hu hrun
  obtain ⟨hint, hrun⟩ := check_bind_eq_ok hrun
  obtain ⟨l, hl, hrun⟩ := (does_isConstantInt i.p1.toNat).rest hl hrun
  obtain ⟨l, hl, hrun⟩ := (does_int i.p1.toNat).rest hl hrun
  have hfits := setInt_bind_eq_ok hrun
  obtain ⟨l, hl, hrun⟩ := (does_setInt i.p1.toNat hfits false).rest hl hrun
  cases hrun
  refine ⟨_, ?_, mirrors_of_twins (ht.withCell hlt (ht.sound _).withPayload
    ((ht.cells i.p1.toNat).withPayload _)) hl (hu'.withCell _ _)⟩
  simp only [bind_of_ok (cell_run b' _),
    bind_of_ok (modifyCell_run b' _ _), ht.int_eq hint, wrapWord_of_fits hfits]
  rfl

theorem does_realValue (r : Nat) :
    ∃ x : Number, x.isZero = (b.cellAt r).realValue.isZero ∧ Does s (realValue r) b x b := by
  have hflags := does_flags (s := s) (b := b) r
  cases hr : (b.cellAt r).flags.real with
  | true =>
    refine ⟨.real (b.cellAt r).real, by simp [Cell.realValue, hr, Number.isZero], hflags.bind ?_⟩
    simpa only [hr, if_true] using does_real r
  | false =>
    cases hi : (b.cellAt r).flags.int with
    | true =>
      refine ⟨.int (b.cellAt r).int, ?_, hflags.bind ?_⟩
      · have hfits : fitsWord (b.cellAt r).int = true := fitsWord_wordToInt _
        simp [Cell.realValue, hr, hi, Number.isZero, Double.isZero_ofInt hfits]
      · simp only [hr, hi, if_true, Bool.false_eq_true, if_false]
        exact (does_int r).bind (does_pure _)
    | false =>
      cases ht : (b.cellAt r).flags.textual with
      | true =>
        refine ⟨.real (b.cellAt r).readReal.value, ?_, hflags.bind ?_⟩
        · simp [Cell.realValue, hr, hi, ht, Number.isZero]
        · simp only [hr, hi, ht, if_true, Bool.false_eq_true, if_false]
          exact (does_cell r).bind (does_pure _)
      | false =>
        refine ⟨.real .zero, by simp [Cell.realValue, hr, hi, ht, Number.isZero], hflags.bind ?_⟩
        simpa only [hr, hi, ht, Bool.false_eq_true, if_false] using does_pure _

theorem condition_follows (h : b.Mirrors b') (h0 : 0 ≤ i.p1) (negate : Bool) :
    Follows (Tracked.condition negate i) (Direct.condition negate i) b b' := by
  refine h.follows_register h0 fun ρ live s s' l ht hlt hu hu' a b₁ hrun => ?_
  obtain ⟨l, hl, hrun⟩ := (does_flags i.p1.toNat).rest hu hrun
  have hc := ht.cells i.p1.toNat
  simp only [bind_of_ok (cell_run b' _), hc.null,
    hc.realValue]
  split at hrun
  · rename_i hnull
    cases hrun
    rw [if_pos hnull]
    exact ⟨b', rfl, mirrors_of_twins ht hl hu'⟩
  · rename_i hnull
    obtain ⟨x, hx, hdoes⟩ := does_realValue (b := b) (s := s) i.p1.toNat
    obtain ⟨l, hl, hrun⟩ := hdoes.rest hl hrun
    cases hrun
    rw [if_neg hnull, hx]
    exact ⟨b', rfl, mirrors_of_twins ht hl hu'⟩

theorem real_follows (h : b.Mirrors b') (h0 : 0 ≤ i.p2) :
    Follows (Tracked.real i) (Direct.real i) b b' := by
  refine h.follows fun ρ live s s' l ht hu hu' a b₁ hrun => ?_
  obtain ⟨hlt, hrun⟩ := register_bind_eq_ok h0 hrun
  have hlt : i.p2.toNat < b.cells.size := Nat.lt_of_lt_of_le hlt ht.fits
  obtain ⟨l, hl, hrun⟩ := (does_setFlags hlt .onlyReal).rest hu hrun
  cases hx : i.p4 with
  | real x =>
    simp only [hx] at hrun
    obtain ⟨hnan, hrun⟩ := check_bind_eq_ok hrun
    have hfinite : x.isFinite = true := by
      by_contra hf
      have hinf : x.isInf = true := by
        simp only [Double.isNaN, Double.isFinite, Double.isInf, Bool.not_eq_true', decide_eq_true_eq,
          decide_eq_false_iff_not, beq_iff_eq] at *
        omega
      obtain ⟨l', herr⟩ := hl.setReal_run_infinite (i := i.p2.toNat)
        (by rwa [← size_withCell b] at hlt) hinf
      rw [herr] at hrun
      cases hrun
    obtain ⟨_, l, rfl, hl⟩ := (does_setConstantReal i.p2.toNat (x := .real x) hfinite).eq hl hrun
    rw [withCell_withCell, cellAt_withCell_self hlt] at hl ⊢
    refine ⟨_, ?_, mirrors_of_twins (ht.withCell hlt
      ((ht.sound _).untextual _ rfl rfl (fun h => by cases h) fun h => by cases h)
      ((ht.cells _).remark ⟨false, rfl, fun h => by cases h⟩ (fun _ => rfl) fun h => by cases h)) hl (hu'.withCell _ _)⟩
    simp only [Direct.real, hx]
    exact bind_of_ok (slot_run h0)
  | _ => simp only [hx] at hrun; cases hrun

theorem realAffinity_follows (h : b.Mirrors b') (h0 : 0 ≤ i.p1) :
    Follows (Tracked.realAffinity i) (Direct.realAffinity i) b b' := by
  refine h.follows_register h0 fun ρ live s s' l ht hlt hu hu' a b₁ hrun => ?_
  obtain ⟨l, hl, hrun⟩ := (does_flags i.p1.toNat).rest hu hrun
  have hc := ht.cells i.p1.toNat
  rw [modifyCell_run, hc.int]
  split at hrun
  · rename_i hint
    obtain ⟨l, hl, hrun⟩ := (does_int i.p1.toNat).rest hl hrun
    obtain ⟨l, hl, hrun⟩ := (does_setReal i.p1.toNat (.real _)).rest hl hrun
    obtain ⟨_, l, rfl, hl⟩ := (does_retype (by rwa [size_withCell]) .onlyReal).eq hl hrun
    rw [if_pos hint]
    rw [withCell_withCell, cellAt_withCell_self hlt] at hl ⊢
    have hreal := (ht.sound i.p1.toNat).number hint
    have hvalue : (b'.cellAt i.p1.toNat).realValue = .ofInt (b.cellAt i.p1.toNat).int := by
      rw [hc.realValue]
      simp [Cell.realValue, hreal, hint]
    refine ⟨_, rfl, mirrors_of_twins (ht.withCell hlt ?_ ?_) hl (hu'.withCell _ _)⟩
    · exact (ht.sound _).withPayload.retype rfl ⟨rfl, rfl, rfl⟩ fun h => by cases h
    · rw [Cell.realify, hvalue]
      exact (hc.withPayload _).retype ⟨rfl, rfl, rfl⟩ fun _ => rfl
  · rename_i hint
    cases hrun
    rw [if_neg hint]
    exact ⟨_, rfl, by simpa using mirrors_of_twins ht hl hu'⟩

theorem Mirrors.idle {x y : BankM α} {a : α} (h : b.Mirrors b') (hx : ∀ s, Does s x b a b)
    (hy : ∀ s, Does s y b' a b') : Follows x y b b' := by
  obtain ⟨ρ, live, s, s', ht, hu, hu'⟩ := h
  intro c b₁ hrun
  have hu₀ := hu
  rw [← hu.knowing_self] at hrun hu
  obtain ⟨rfl, l, rfl, hl⟩ := (hx s).eq hu hrun
  obtain ⟨l', hrun', hl'⟩ := hy s' b'.ledger (hu'.knowing_self.symm ▸ hu')
  rw [hu'.knowing_self] at hrun'
  exact ⟨_, hrun', ρ, live, s, s', ht.knowing s s' l l', hl, hl'⟩

theorem forgetAt_follows (h : b.Mirrors b') {r : Int} (h0 : 0 ≤ r) :
    Follows (forgetAt r) (forgetAt r) b b' := by
  obtain ⟨_, _, s, _, ht, hu, _⟩ := id h
  by_cases hr : r < b.cells.size
  · exact h.idle (fun _ => does_forgetAt h0 hr) fun _ => does_forgetAt h0 (by rwa [ht.size])
  · -- a position behind the sheet is refused
    have hposition : withLedger (s.position r) b = .error .outOfRange b := by
      simp only [withLedger, Sheet.position, wrapIndex?, h0, hu.width, hr, if_true, if_false]
      rfl
    intro a b₁ hrun
    simp only [forgetAt, bind_of_ok hu.current_run, bind_of_error hposition] at hrun
    cases hrun

/-- Calling a subroutine, without the check of the register's number. -/
def called (pc : Int) (i : Instruction) : BankM Flow := do
  let r ← register i.p1
  check !(← isDynamic r)
  setFlags r .onlyInt
  setInt r pc true
  return .jump i.p2

theorem called_follows (h : b.Mirrors b') {pc : Int} (h0 : 0 ≤ i.p1) :
    Follows (called pc i) (Direct.gosub pc i) b b' := by
  refine h.follows_register h0 fun ρ live s s' l ht hlt hu hu' a b₁ hrun => ?_
  obtain ⟨l, hl, hrun⟩ := (does_isDynamic i.p1.toNat).rest hu hrun
  obtain ⟨_, hrun⟩ := check_bind_eq_ok hrun
  obtain ⟨l, hl, hrun⟩ := (does_setFlags hlt .onlyInt).rest hl hrun
  obtain ⟨l, hl, hrun⟩ := (does_setInt i.p1.toNat (setInt_bind_eq_ok hrun) true).rest hl hrun
  cases hrun
  rw [withCell_withCell, cellAt_withCell_self hlt] at hl ⊢
  exact ⟨_, rfl, mirrors_of_twins (ht.setWord hlt _) hl (hu'.withCell _ _)⟩

/-- Whether a register shows an integer of 32 bits that is not negative, as addresses are. -/
def addresses (b : Bank) (r : Nat) : Bool := b.counts r && 0 ≤ (b.cellAt r).int

/-- The end of a coroutine in a given program, by the tracked and by the direct rule. -/
def Tracked.ended (program : Array Instruction) (i : Instruction) : BankM Flow := do
  let r ← register i.p1
  let k ← expect .outOfRange (wrapIndex? program.size (← int r))
  let caller := program.getD k default
  check (caller.op == .yield)
  setFlags r .onlyUndefined
  return .jump caller.p2

def Direct.ended (program : Array Instruction) (i : Instruction) : BankM Flow := do
  let r ← slot i.p1
  let address := (← cell r).int
  let caller := program.getD address.toNat default
  modifyCell r fun c => { c with flags := .onlyUndefined }
  return .jump caller.p2

theorem ended_follows (h : b.Mirrors b') {program : Array Instruction} (h0 : 0 ≤ i.p1)
    (hc : b.addresses i.p1.toNat = true) :
    Follows (Tracked.ended program i) (Direct.ended program i) b b' := by
  rw [addresses, Bool.and_eq_true, decide_eq_true_eq] at hc
  refine h.follows_register h0 fun ρ live s s' l ht hlt hu hu' a b₁ hrun => ?_
  obtain ⟨l, hl, hrun⟩ := (does_int i.p1.toNat).rest hu hrun
  obtain ⟨k, _, hk, hrun⟩ := bind_eq_ok hrun
  have haddress : k = (b.cellAt i.p1.toNat).int.toNat := by
    rw [wrapIndex?, if_pos hc.2] at hk
    split at hk <;> cases hk
    rfl
  have hstay : ∀ {b₂ : Bank}, expect .outOfRange
      (wrapIndex? program.size (b.cellAt i.p1.toNat).int) (b.knowing s l) = .ok k b₂ →
      b₂ = b.knowing s l := by
    intro b₂ hb₂
    cases ho : wrapIndex? program.size (b.cellAt i.p1.toNat).int <;> rw [ho] at hb₂ <;> cases hb₂
    rfl
  obtain rfl := hstay hk
  obtain ⟨_, hrun⟩ := check_bind_eq_ok hrun
  obtain ⟨l, hl, hrun⟩ := (does_setFlags hlt .onlyUndefined).rest hl hrun
  cases hrun
  refine ⟨b'.withCell i.p1.toNat ((b'.cellAt i.p1.toNat).withFlags .onlyUndefined), ?_,
    mirrors_of_twins (ht.withCell hlt ((ht.sound _).untextual _ rfl rfl (fun h => by cases h) fun h => by cases h)
      ((ht.cells _).withFlags (fun h => by cases h) (by simp [Flags.onlyUndefined]) rfl)) hl (hu'.withCell _ _)⟩
  simp only [bind_of_ok (cell_run b' _),
    bind_of_ok (modifyCell_run b' _ _), ht.int_eq (word_of_counts hc.1).1, haddress]
  rfl

/-- Goes on with a register that is an integer by now or cannot be one; no answer if the run is to be
given up. -/
def settled (i : Instruction) (r : Nat) : BankM (Option Flow) := do
  if (← cell r).flags.int then
    modifyCell r fun c => { c with flags := c.flags.retype .onlyInt }
    return some .next
  else if i.p2 = 0 then return none
  else return some (.jump i.p2)

def integral (i : Instruction) : BankM (Option Flow) := do
  let r ← slot i.p1
  if !(← cell r).flags.int then
    modifyCellWith r fun name => Cell.applyAffinity name .numeric
  settled i r

/-- The same through what is known. -/
def trackedIntegral (i : Instruction) : BankM (Option Flow) := do
  let r ← register i.p1
  if (← flags r).int then
    retype r .onlyInt
    return some .next
  else
    invalidate r
    integral i

theorem applyNumeric_follows (h : b.Mirrors b') {r : Nat} (hr : r < b.cells.size) :
    Follows (modifyCellWith r fun name => Cell.applyAffinity name .numeric)
      (modifyCellWith r fun name => Cell.applyAffinity name .numeric) b b' := by
  refine h.follows fun ρ live s s' l ht hu hu' a b₁ hrun => ?_
  obtain ⟨_, l, rfl, hl⟩ := (does_modifyCellWith r fun name => Cell.applyAffinity name .numeric).eq hu hrun
  refine ⟨_, modifyCellWith_run b' r _, mirrors_of_twins (ht.renewed.put hr ?_ ?_) hl (hu'.renewed.put r _)⟩
  · exact (ht.renewed.sound r).applyNumeric
  · exact ((ht.cells r).applyNumeric).mono fun _ _ hx => .inl hx

theorem Twins.integral (ht : b.Twins ρ live b') {r : Nat} (hr : r < b.cells.size)
    (hi : (b.cellAt r).flags.int = true) :
    (b.withCell r ((b.cellAt r).withFlags ((b.cellAt r).flags.retype .onlyInt))).Twins ρ live
      (b'.withCell r ((b'.cellAt r).withFlags ((b'.cellAt r).flags.retype .onlyInt))) :=
  ht.withCell hr ((ht.sound r).retype rfl ⟨rfl, rfl, rfl⟩ fun _ => rfl)
    ((ht.cells r).retype ⟨rfl, rfl, rfl⟩ fun _ => (ht.cells r).word (.inl hi))

theorem settled_follows (h : b.Mirrors b') {r : Nat} (hr : r < b.cells.size) :
    Follows (settled i r) (settled i r) b b' := by
  refine h.follows fun ρ live s s' l ht hu hu' a b₁ hrun => ?_
  unfold settled at hrun ⊢
  rw [bind_of_ok (cell_run _ _)] at hrun ⊢
  rw [cellAt_knowing] at hrun
  rw [(ht.cells _).int]
  cases hi : (b.cellAt r).flags.int with
  | true =>
    rw [hi, if_pos rfl] at hrun
    rw [if_pos rfl]
    obtain ⟨l, hl, hrun⟩ := (does_modifyCell r _).rest hu hrun
    cases hrun
    exact ⟨_, rfl, mirrors_of_twins (ht.integral hr hi) hl (hu'.withCell _ _)⟩
  | false =>
    rw [hi, if_neg Bool.false_ne_true] at hrun
    rw [if_neg Bool.false_ne_true]
    split at hrun <;> cases hrun
    · rename_i hp
      exact ⟨b', by rw [if_pos hp]; rfl, mirrors_of_twins ht hu hu'⟩
    · rename_i hp
      exact ⟨b', by rw [if_neg hp]; rfl, mirrors_of_twins ht hu hu'⟩

theorem size_modifyCellWith {r : Nat} {f : Nat → Cell → Cell} {b₁ : Bank}
    (h : modifyCellWith r f b = .ok () b₁) : b₁.cells.size = b.cells.size := by
  rw [modifyCellWith_run] at h
  cases h
  rw [size_put]
  rfl

theorem integral_follows (h : b.Mirrors b') (h0 : 0 ≤ i.p1) (hr : i.p1.toNat < b.cells.size) :
    Follows (integral i) (integral i) b b' := by
  have hint : (b'.cellAt i.p1.toNat).flags.int = (b.cellAt i.p1.toNat).flags.int := by
    obtain ⟨_, _, _, _, ht, _⟩ := h
    exact (ht.cells _).int
  intro a b₁ hrun
  simp only [integral, bind_of_ok (slot_run h0), bind_of_ok (cell_run _ _), hint] at hrun ⊢
  cases hi : (b.cellAt i.p1.toNat).flags.int with
  | true =>
    simp only [hi, Bool.not_true, Bool.false_eq_true, if_false] at hrun ⊢
    exact settled_follows h hr a b₁ hrun
  | false =>
    simp only [hi, Bool.not_false, if_true] at hrun ⊢
    obtain ⟨_, b₂, happly, hrun⟩ := bind_eq_ok hrun
    obtain ⟨b₂', happly', h₂⟩ := applyNumeric_follows h hr _ _ happly
    rw [bind_of_ok happly']
    exact settled_follows h₂ (by rwa [size_modifyCellWith happly]) a b₁ hrun

theorem trackedIntegral_follows (h : b.Mirrors b') (h0 : 0 ≤ i.p1) :
    Follows (trackedIntegral i) (integral i) b b' := by
  refine h.follows fun ρ live s s' l ht hu hu' a b₁ hrun => ?_
  obtain ⟨hlt, hrun⟩ := register_bind_eq_ok h0 hrun
  have hlt : i.p1.toNat < b.cells.size := Nat.lt_of_lt_of_le hlt ht.fits
  obtain ⟨l, hl, hrun⟩ := (does_flags i.p1.toNat).rest hu hrun
  cases hi : (b.cellAt i.p1.toNat).flags.int with
  | true =>
    rw [hi, if_pos rfl] at hrun
    obtain ⟨l, hl, hrun⟩ := (does_retype hlt .onlyInt).rest hl hrun
    cases hrun
    refine ⟨_, ?_, mirrors_of_twins (ht.integral hlt hi) hl (hu'.withCell _ _)⟩
    simp only [integral, settled, bind_of_ok (slot_run h0), bind_of_ok (cell_run _ _), (ht.cells _).int, hi,
      Bool.not_true, Bool.false_eq_true, if_false, if_true]
    rfl
  | false =>
    rw [hi, if_neg Bool.false_ne_true] at hrun
    obtain ⟨l, hl, hrun⟩ := (does_invalidate i.p1.toNat).rest hl hrun
    exact integral_follows (mirrors_of_twins ht hl hu') h0 hlt a b₁ hrun

end Bank

end QueryMachine
