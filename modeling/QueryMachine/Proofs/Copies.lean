import Mathlib
import QueryMachine.Proofs.Simulation

/-!
Copies of registers. A tracked copy takes the payload that the marks of a register name, a direct one
takes the whole register; afterwards both show the same.
-/

namespace QueryMachine

namespace Bank

variable {α : Type} {b b' : Bank} {i : Instruction} {s s' : Sheet} {ρ : Naming} {live : Nat → Prop}
  {l : Ledger}

theorem does_takePayload {r j : Nat} (hs : (b.cellAt j).Sound live) :
    ∃ p, (b.cellAt j).Names p ∧
      Does s (takePayload r j (b.cellAt j).flags) b () (b.withCell r ((b.cellAt r).withPayload p)) := by
  have hint := does_int (s := s) (b := b) j
  have hreal := does_real (s := s) (b := b) j
  have hcell := does_cell (s := s) (b := b) j
  cases hz : (b.cellAt j).flags.zero with
  | true =>
    obtain ⟨_, hi, hre⟩ := hs.counted hz
    refine ⟨Content.withZeros (b.cellAt r).payload (b.cellAt j).zeros,
      ⟨by simp [hi, hre], fun _ => zeros_withZeros _ _⟩, ?_⟩
    simp only [takePayload, hz, hi, hre, if_true, Bool.false_eq_true, if_false]
    exact hcell.bind (does_modifyCell r fun d =>
      { d with payload := Content.withZeros d.payload (b.cellAt j).zeros })
  | false =>
    cases hi : (b.cellAt j).flags.int with
    | true =>
      have hre := hs.number hi
      refine ⟨(b.cellAt j).payload, ⟨fun _ => rfl, by simp [hz]⟩, ?_⟩
      simp only [takePayload, hz, hi, hre, if_true, Bool.false_eq_true, if_false]
      have hput := does_setInt (s := s) (b := b) r (fitsWord_wordToInt (b.cellAt j).payload) false
      rw [intToWord_wordToInt] at hput
      exact hint.bind (hput.bind (does_pure ()))
    | false =>
      cases hre : (b.cellAt j).flags.real with
      | true =>
        refine ⟨(b.cellAt j).payload, ⟨fun _ => rfl, by simp [hz]⟩, ?_⟩
        simp only [takePayload, hz, hi, hre, if_true, Bool.false_eq_true, if_false]
        exact hreal.bind ((does_setReal r (.real (b.cellAt j).real)).bind (does_pure ()))
      | false =>
        refine ⟨(b.cellAt r).payload, ⟨by simp [hi, hre], by simp [hz]⟩, ?_⟩
        simp only [takePayload, hz, hi, hre, Bool.false_eq_true, if_false]
        have hback : b.withCell r ((b.cellAt r).withPayload (b.cellAt r).payload) = b :=
          withCell_cellAt b r
        rw [hback]
        exact does_pure ()

theorem check_if_eq_ok {σ : Type} {q : Prop} [Decidable q] {p : Bool} {f : Unit → EStateM Fault σ α}
    {a : α} {x x' : σ} (h : (if q then check p >>= f else f ()) x = .ok a x') : f () x = .ok a x' := by
  by_cases hq : q
  · rw [if_pos hq] at h
    exact (check_bind_eq_ok h).2
  · rwa [if_neg hq] at h

/-- The rest of a shallow copy, after the payload `p` has been taken. -/
theorem takeString_eq_ok {r j : Nat} {loan : Cell.Loan} {p : UInt64} {b₁ : Bank} (hr : r < b.cells.size)
    (hl : ((b.withCell r ((b.cellAt r).withPayload p)).knowing s l).Unaware s)
    (hrun : takeString r j (b.cellAt j).flags (some loan)
      ((b.withCell r ((b.cellAt r).withPayload p)).knowing s l) = .ok () b₁) :
    ∃ l₁, b₁ = (b.withCell r ((b.cellAt r).borrowed loan (b.cellAt j) p)).knowing s l₁ ∧
      b₁.Unaware s := by
  -- the source is the target itself or has not been touched, so only its payload may be another one
  have hsrc : ∃ q, (b.withCell r ((b.cellAt r).withPayload p)).cellAt j = (b.cellAt j).withPayload q := by
    rw [cellAt_withCell hr]
    split
    · rename_i heq
      exact ⟨p, by rw [heq]⟩
    · exact ⟨(b.cellAt j).payload, rfl⟩
  obtain ⟨q, hsrc⟩ := hsrc
  unfold takeString at hrun
  have hrun := check_if_eq_ok (check_if_eq_ok hrun)
  obtain ⟨l, hl, hrun⟩ := (does_cell j).rest hl hrun
  obtain ⟨l, hl, hrun⟩ := (does_modifyCell r _).rest hl hrun
  rw [hsrc, withCell_withCell, cellAt_withCell_self hr] at hl hrun
  have hmark : setFlags r (loan.mark (b.cellAt j).flags)
      ((b.withCell r { (b.cellAt r).withPayload p with
        encoding := (b.cellAt j).encoding
        size := (b.cellAt j).size
        data := (b.cellAt j).data
        attachment := (b.cellAt j).attachment }).knowing s l) = .ok () b₁ := by
    cases hs : (b.cellAt j).flags.static with
    | true =>
      rw [Cell.Loan.mark, if_pos hs]
      rw [hs] at hrun
      exact hrun
    | false =>
      rw [hs] at hrun
      exact hrun
  obtain ⟨_, l, rfl, hl⟩ := (does_setFlags (by rwa [size_withCell]) _).eq hl hmark
  rw [withCell_withCell, cellAt_withCell_self hr] at hl ⊢
  exact ⟨l, rfl, hl⟩

/-- The bank in which nothing hangs on register `r` from outside any more. -/
def clearing (b : Bank) (r : Nat) : Bank := b.withCell r (b.cellAt r).released

/-- The bank in which register `r` has borrowed the content of register `j`. -/
def lending (b : Bank) (r j : Nat) (loan : Cell.Loan) (p : UInt64) : Bank :=
  b.withCell r ((b.cellAt r).borrowed loan (b.cellAt j) p)

theorem shallowCopy_eq_ok {r j : Nat} {loan : Cell.Loan} {b₁ : Bank} (hr : r < b.cells.size)
    (hs : ((b.clearing r).cellAt j).Sound live) (hl : (b.knowing s l).Unaware s)
    (hrun : shallowCopy r j (some loan) (b.knowing s l) = .ok () b₁) :
    ∃ p l₁, ((b.clearing r).cellAt j).Names p ∧ b₁.Unaware s ∧
      b₁ = ((b.clearing r).lending r j loan p).knowing s l₁ := by
  obtain ⟨l, hl, hrun⟩ := (does_flags j).rest hl hrun
  obtain ⟨_, hrun⟩ := check_bind_eq_ok hrun
  obtain ⟨l, hl, hrun⟩ := (does_releaseExtern r).rest hl hrun
  obtain ⟨l, hl, hrun⟩ := (does_flags j).rest hl hrun
  obtain ⟨p, hp, hpayload⟩ := does_takePayload (r := r) (s := s) hs
  obtain ⟨l, hl, hrun⟩ := hpayload.rest hl hrun
  obtain ⟨l, rfl, hl⟩ := takeString_eq_ok (b := b.clearing r) (by rwa [clearing, size_withCell]) hl hrun
  exact ⟨p, l, hp, hl, rfl⟩

theorem Twins.clearing (ht : b.Twins ρ live b') {r : Nat} (hr : r < b.cells.size) :
    (b.clearing r).Twins ρ live (b'.clearing r) :=
  ht.withCell hr (ht.sound r).released (ht.cells r).released

theorem Twins.lending (ht : b.Twins ρ live b') {r j : Nat} (hr : r < b.cells.size) (loan : Cell.Loan)
    {p : UInt64} (hp : (b.cellAt j).Names p) :
    (b.lending r j loan p).Twins ρ live (b'.lending r j loan (b'.cellAt j).payload) :=
  ht.withCell hr ((ht.sound r).borrowed (ht.sound j) loan p)
    ((ht.cells r).borrowed (ht.cells j) loan hp)

theorem borrow_run {r j : Nat} (hr : r < b.cells.size) :
    Direct.borrow j r b =
      .ok () ((b.clearing r).lending r j .ephem ((b.clearing r).cellAt j).payload) := by
  have hself : (b.clearing r).cellAt r = (b.cellAt r).released := cellAt_withCell_self hr _
  have hlend : Cell.shallowCopy .ephem ((b.clearing r).cellAt j) ((b.clearing r).cellAt r) =
      ((b.clearing r).cellAt r).borrowed .ephem ((b.clearing r).cellAt j)
        ((b.clearing r).cellAt j).payload := by
    rw [hself, Cell.shallowCopy, Cell.released_released]
    rfl
  rw [Bank.lending, ← hlend]
  rfl

theorem sCopy_follows (h : b.Mirrors b') (h1 : 0 ≤ i.p1) (h2 : 0 ≤ i.p2) :
    Follows (Tracked.sCopy i) (Direct.sCopy i) b b' := by
  refine h.follows fun ρ live s s' l ht hu hu' a b₁ hrun => ?_
  obtain ⟨_, hrun⟩ := register_bind_eq_ok h1 hrun
  obtain ⟨hlt, hrun⟩ := register_bind_eq_ok h2 hrun
  obtain ⟨_, hrun⟩ := check_bind_eq_ok hrun
  have hlt : i.p2.toNat < b.cells.size := Nat.lt_of_lt_of_le hlt ht.fits
  have hc := ht.clearing hlt
  obtain ⟨p, l, hp, hl, rfl⟩ := shallowCopy_eq_ok hlt (hc.sound _) hu hrun
  have hlend := hc.lending (r := i.p2.toNat) (by rwa [Bank.clearing, size_withCell]) .ephem hp
  refine ⟨_, ?_, mirrors_of_twins hlend hl ((hu'.withCell _ _).withCell _ _)⟩
  rw [Direct.sCopy, bind_of_ok (slot_run h1), bind_of_ok (slot_run h2), borrow_run (ht.size ▸ hlt)]

theorem parameter_bind_eq_ok {k : Int} (h0 : 0 ≤ k) {f : Nat → BankM α} {a : α} {b₁ : Bank}
    (h : (Bank.parameter k >>= f) b = .ok a b₁) : f (b.reach + k.toNat) b = .ok a b₁ := by
  by_cases hk : k < (b.cells.size - b.reach : Nat)
  · have hrun : Bank.parameter k b = .ok (b.reach + k.toNat) b := by
      simp only [Bank.parameter, bind_of_ok get_run, wrapIndex?, h0, hk, if_true]
      rfl
    rwa [bind_of_ok hrun] at h
  · have hrun : Bank.parameter k b = .error .unknownVariable b := by
      simp only [Bank.parameter, bind_of_ok get_run, wrapIndex?, h0, hk, if_true, if_false]
      rfl
    rw [bind_of_error hrun] at h
    cases h

theorem parameter_follows (h : b.Mirrors b') (h1 : 0 < i.p1) (h2 : 0 ≤ i.p2) :
    Follows (Tracked.parameter i) (Direct.parameter i) b b' := by
  refine h.follows fun ρ live s s' l ht hu hu' a b₁ hrun => ?_
  have hrun := parameter_bind_eq_ok (by omega) hrun
  obtain ⟨hlt, hrun⟩ := register_bind_eq_ok h2 hrun
  change shallowCopy _ (b.reach + (i.p1 - 1).toNat) _ _ = _ at hrun
  have hne : i.p2.toNat ≠ b.reach + (i.p1 - 1).toNat := by
    have : i.p2.toNat < b.reach := hlt
    omega
  have hlt : i.p2.toNat < b.cells.size := Nat.lt_of_lt_of_le hlt ht.fits
  have hc := ht.clearing hlt
  obtain ⟨p, l, hp, hl, rfl⟩ := shallowCopy_eq_ok hlt (hc.sound _) hu hrun
  have hlend := hc.lending (r := i.p2.toNat) (by rwa [Bank.clearing, size_withCell]) .static hp
  refine ⟨_, ?_, mirrors_of_twins hlend hl ((hu'.withCell _ _).withCell _ _)⟩
  -- a parameter is not the register, so clearing the register leaves it as it is
  have hlt' : i.p2.toNat < b'.cells.size := ht.size ▸ hlt
  have hsource : (b'.clearing i.p2.toNat).cellAt (b.reach + (i.p1 - 1).toNat) =
      b'.cellAt (b.reach + (i.p1 - 1).toNat) := by
    rw [Bank.clearing, cellAt_withCell hlt', if_neg hne]
  have htarget : (b'.clearing i.p2.toNat).cellAt i.p2.toNat = (b'.cellAt i.p2.toNat).released :=
    cellAt_withCell_self hlt' _
  rw [Bank.lending, hsource, htarget, Bank.clearing, withCell_withCell]
  simp only [Direct.parameter, bind_of_ok get_run, ht.reach, bind_of_ok (cell_run b' _),
    bind_of_ok (slot_run h2)]
  rfl

theorem Mirrors.forgetAll (h : b.Mirrors b') : ∃ b₁', forgetAll b' = .ok () b₁' ∧ b.Mirrors b₁' := by
  obtain ⟨ρ, live, s, s', ht, hu, hu'⟩ := h
  obtain ⟨l', hrun, hl'⟩ := does_forgetAll (b := b') (s := s') b'.ledger (hu'.knowing_self.symm ▸ hu')
  rw [hu'.knowing_self] at hrun
  have := ht.knowing s s' b.ledger l'
  rw [hu.knowing_self] at this
  exact ⟨_, hrun, ρ, live, s, s', this, hu, hl'⟩

theorem makeWriteable_follows (h : b.Mirrors b') {r : Nat} (hr : r < b.cells.size)
    (hf : (b.cellAt r).flags.static = false ∧ (b.cellAt r).flags.dyn = false) :
    Follows (makeWriteable r) (modifyCellWith r Cell.makeWriteable) b b' := by
  refine h.follows fun ρ live s s' l ht hu hu' a b₁ hrun => ?_
  have hc := ht.cells r
  have hdirect := modifyCellWith_run b' r Cell.makeWriteable
  obtain ⟨l, hl, hrun⟩ := (does_flags r).rest hu hrun
  obtain ⟨_, hrun⟩ := check_bind_eq_ok hrun
  obtain ⟨l, hl, hrun⟩ := (does_expandBlob r).rest hl hrun
  rw [hdirect]
  refine ⟨_, rfl, ?_⟩
  cases hz : (b.cellAt r).flags.zero with
  | true =>
    rw [if_pos hz] at hl hrun
    have hself : (b.renewed.put r ((b.cellAt r).expandBlob b.fresh)).cellAt r =
        (b.cellAt r).expandBlob b.fresh := by
      rw [cellAt_put (b := b.renewed) hr, if_pos rfl]
    obtain ⟨l, hl, hrun⟩ := (does_flags r).rest hl hrun
    obtain ⟨l, hl, hrun⟩ := (does_cell r).rest hl hrun
    rw [hself, (Cell.expandBlob_owner hz _).1, Bool.not_true, Bool.and_false,
      if_neg Bool.false_ne_true] at hrun
    cases hrun
    rw [Cell.makeWriteable_of_zero (hc.zero.trans hz)]
    exact mirrors_of_twins (ht.renewed.put hr ((ht.sound r).expandBlob hz) (hc.expandBlob ht.names hz)) hl
      (hu'.renewed.put r _)
  | false =>
    rw [hz, if_neg Bool.false_ne_true] at hl hrun
    obtain ⟨l, hl, hrun⟩ := (does_flags r).rest hl hrun
    obtain ⟨l, hl, hrun⟩ := (does_cell r).rest hl hrun
    rw [Cell.makeWriteable_of_not_zero (hc.zero.trans hz), hc.textual, hc.room, hc.isOwner ht.names]
    cases hm : (b.cellAt r).flags.textual && !(b.cellAt r).isOwner with
    | true =>
      rw [hm, if_pos rfl] at hrun
      obtain ⟨l, hl, hrun⟩ := (does_direct r Cell.addTerminator).rest hl hrun
      obtain ⟨_, l, rfl, hl⟩ := (does_setFlags (by rwa [size_put]) _).eq hl hrun
      have hmoves : ((b.cellAt r).flags.textual &&
          ((b.cellAt r).room == 0 || !(b.cellAt r).isOwner)) = true := by
        rw [Bool.and_eq_true] at hm
        rw [hm.1, hm.2, Bool.or_true, Bool.and_true]
      rw [if_pos hmoves]
      have hput := ht.renewed.put hr ((ht.sound r).addTerminator (n := b.fresh))
        (hc.addTerminator ht.names)
      have hself : (b.renewed.put r ((b.cellAt r).addTerminator b.fresh)).cellAt r =
          (b.cellAt r).addTerminator b.fresh := by
        rw [cellAt_put (b := b.renewed) hr, if_pos rfl]
      have hself' : (b'.renewed.put r ((b'.cellAt r).addTerminator b'.fresh)).cellAt r =
          (b'.cellAt r).addTerminator b'.fresh := by
        rw [cellAt_put (b := b'.renewed) (ht.size ▸ hr), if_pos rfl]
      have hflags : { (b.cellAt r).flags with term := true } =
          { ((b.cellAt r).addTerminator b.fresh).flags with ephem := (b.cellAt r).flags.ephem } := by
        simp [Cell.addTerminator, Cell.flags_grow, hf]
      have hstatic : ((b.cellAt r).addTerminator b.fresh).flags.static = false := by
        simp [Cell.addTerminator, Cell.flags_grow]
      have hsound := (hput.sound r).loaned (by rw [hself]; exact hstatic) (b.cellAt r).flags.ephem
      have htwin := (hput.cells r).loaned (by rw [hself]; exact hstatic) (b.cellAt r).flags.ephem
      rw [hself] at hsound htwin hl ⊢
      rw [← hflags] at hsound htwin
      have := hput.withCell (by rwa [size_put]) hsound htwin
      rw [withCell_cellAt] at this
      exact mirrors_of_twins this hl (hu'.renewed.put r _)
    | false =>
      rw [hm, if_neg Bool.false_ne_true] at hrun
      cases hrun
      have hstays : ((b.cellAt r).flags.textual &&
          ((b.cellAt r).room == 0 || !(b.cellAt r).isOwner)) = false := by
        cases htext : (b.cellAt r).flags.textual with
        | false => rfl
        | true =>
          have howner : (b.cellAt r).isOwner = true := by simpa [htext] using hm
          simpa [howner] using (ht.sound r).room_ne_zero htext hz howner
      rw [hstays, if_neg Bool.false_ne_true]
      have hback := put_cellAt b'.renewed r
      have : b'.renewed.cellAt r = b'.cellAt r := rfl
      rw [this] at hback
      rw [hback]
      exact mirrors_of_twins ht.renewed_right hl hu'.renewed

theorem copyRegister_follows (h : b.Mirrors b') {r j : Nat} (hr : r < b.cells.size) :
    Follows (Tracked.copyRegister j r) (Direct.copyRegister j r) b b' := by
  refine h.follows fun ρ live s s' l ht hu hu' a b₁ hrun => ?_
  obtain ⟨_, b₂, hcopy, hrun⟩ := bind_eq_ok hrun
  have hr' : r < (b.clearing r).cells.size := by rwa [Bank.clearing, size_withCell]
  have hc := ht.clearing hr
  obtain ⟨p, l, hp, hl, rfl⟩ := shallowCopy_eq_ok hr (hc.sound j) hu hcopy
  have ht₂ := hc.lending hr' .ephem hp
  have hu₂ := (hu'.withCell r (b'.cellAt r).released).withCell r
    (((b'.clearing r).cellAt r).borrowed .ephem ((b'.clearing r).cellAt j) ((b'.clearing r).cellAt j).payload)
  obtain ⟨l, hl, hrun⟩ := (does_flags r).rest hl hrun
  rw [Direct.copyRegister, bind_of_ok (borrow_run (ht.size ▸ hr)), bind_of_ok (cell_run _ _)]
  rw [Bank.lending, cellAt_withCell_self hr'] at hrun
  rw [Bank.lending, cellAt_withCell_self (hc.size ▸ hr')]
  cases hs : ((b.clearing r).cellAt j).flags.static with
  | true =>
    rw [Cell.borrowed_flags_static _ _ _ hs, (hc.sound j).lasting hs, if_neg Bool.false_ne_true] at hrun
    cases hrun
    rw [Cell.borrowed_flags_static _ _ _ ((hc.cells j).static.trans hs), (hc.cells j).lasting hs,
      if_neg Bool.false_ne_true]
    exact ⟨_, rfl, mirrors_of_twins ht₂ hl hu₂⟩
  | false =>
    have hflags := Cell.borrowed_flags ((b.clearing r).cellAt r) _ p hs
    rw [hflags, if_pos rfl] at hrun
    rw [Cell.borrowed_flags _ _ _ ((hc.cells j).static.trans hs), if_pos rfl]
    have hplain := cellAt_withCell_self hr'
      (((b.clearing r).cellAt r).borrowed .ephem ((b.clearing r).cellAt j) p)
    exact makeWriteable_follows (mirrors_of_twins ht₂ hl hu₂) (by rwa [← size_withCell (b.clearing r)] at hr')
      (by rw [cellAt_knowing, Bank.lending, hplain, hflags]; exact ⟨rfl, rfl⟩) a b₁ hrun

theorem Follows.bind {β : Type} {x y : BankM α} {f g : α → BankM β} (hxy : Follows x y b b')
    (hfg : ∀ a b b', b.Mirrors b' → Follows (f a) (g a) b b') :
    Follows (x >>= f) (y >>= g) b b' := by
  intro c b₂ hrun
  obtain ⟨a, b₁, hx, hf⟩ := bind_eq_ok hrun
  obtain ⟨b₁', hy, hm⟩ := hxy a b₁ hx
  rw [bind_of_ok hy]
  exact hfg a b₁ b₁' hm c b₂ hf

theorem Follows.forM {γ : Type} {xs : List γ} {f g : γ → BankM PUnit}
    (hfg : ∀ a, ∀ b b', b.Mirrors b' → Follows (f a) (g a) b b') (h : b.Mirrors b') :
    Follows (forM xs f) (forM xs g) b b' := by
  induction xs generalizing b b' with
  | nil =>
    intro c b₁ hrun
    cases hrun
    exact ⟨b', rfl, h⟩
  | cons a xs ih =>
    rw [List.forM_cons, List.forM_cons]
    exact (hfg a b b' h).bind fun _ _ _ hm => ih hm

theorem copy_follows (h : b.Mirrors b') (h1 : 0 ≤ i.p1) (h2 : 0 ≤ i.p2) :
    Follows (Tracked.copy i) (Direct.copy i) b b' := by
  have htracked : Tracked.copy i = forM (List.range (i.p3 + 1).toNat) (fun k : Nat => do
      let source ← register (i.p1 + k)
      let target ← register (i.p2 + k)
      Tracked.copyRegister source target) := by
    simp only [Tracked.copy, ← forIn_eq_forM, bind_assoc, bind_pure_unit]
  have hdirect : Direct.copy i = forM (List.range (i.p3 + 1).toNat) (fun k : Nat => do
      let source ← slot (i.p1 + k)
      let target ← slot (i.p2 + k)
      Direct.copyRegister source target) := by
    simp only [Direct.copy, ← forIn_eq_forM, bind_assoc, bind_pure_unit]
  rw [htracked, hdirect]
  refine Follows.forM (fun k b b' h => ?_) h
  intro a b₁ hrun
  obtain ⟨_, hrun⟩ := register_bind_eq_ok (by omega) hrun
  obtain ⟨hlt, hrun⟩ := register_bind_eq_ok (by omega) hrun
  have hlt : (i.p2 + k).toNat < b.cells.size := by
    obtain ⟨_, _, _, _, ht, _⟩ := h
    exact Nat.lt_of_lt_of_le hlt ht.fits
  rw [bind_of_ok (slot_run (by omega)), bind_of_ok (slot_run (by omega))]
  exact copyRegister_follows h hlt a b₁ hrun

end Bank

end QueryMachine
