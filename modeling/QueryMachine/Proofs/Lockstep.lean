import Mathlib
import QueryMachine.Machine.Statement
import QueryMachine.Proofs.Copies
import QueryMachine.Proofs.Turns

/-!
Two machines run the same program of instructions that choose the next instruction or copy registers,
one by the tracked and the other by the direct rules. They take the same way and show the same.
-/

namespace QueryMachine

namespace Bank

variable {α : Type} {b b' : Bank} {i : Instruction} {s s' : Sheet} {ρ : Naming} {live : Nat → Prop}

theorem does_checkRegisters : Does s Machine.checkRegisters b () b := by
  have hloop : Machine.checkRegisters = (do forM (List.range (← get).reach) checkFacts) := by
    simp only [Machine.checkRegisters, ← forIn_eq_forM, bind_pure_unit]
  rw [hloop]
  intro l hl
  rw [bind_of_ok get_run]
  exact does_forM (fun r _ => does_checkFacts r) l hl

theorem does_conclude : Does s (Machine.conclude i) b () b := by
  unfold Machine.conclude
  split
  · exact does_forgetAll.bind does_checkRegisters
  · exact does_checkRegisters

theorem does_prepared : Does s (do
    Machine.checkRegisters
    if !i.op.keepsKnowledge then forgetAll
    Machine.checkRegisters) b () b := by
  refine does_checkRegisters.bind ?_
  split
  · exact does_forgetAll.bind does_checkRegisters
  · exact does_checkRegisters

theorem does_prepare (hw : i.op.overwritesSecond = false) : Does s (Machine.prepare i) b () b := by
  have hskip : Machine.prepare i = (do
      Machine.checkRegisters
      if !i.op.keepsKnowledge then forgetAll
      Machine.checkRegisters) := by
    simp only [Machine.prepare, hw, Bool.false_eq_true, if_false]
  rw [hskip]
  exact does_prepared

theorem does_prepare_second (hw : i.op.overwritesSecond = true) (h0 : 0 ≤ i.p2)
    (hi : i.p2.toNat < b.reach) (hf : b.reach ≤ b.cells.size) :
    Does s (Machine.prepare i) b ()
      (b.withCell i.p2.toNat ((b.cellAt i.p2.toNat).released.withFlags .onlyInt)) := by
  have hlt : i.p2.toNat < b.cells.size := Nat.lt_of_lt_of_le hi hf
  have hready : Machine.prepare i = (do
      let r ← register i.p2
      releaseExtern r
      setFlags r .onlyInt
      Machine.checkRegisters
      if !i.op.keepsKnowledge then forgetAll
      Machine.checkRegisters) := by
    simp only [Machine.prepare, hw, if_true]
  rw [hready]
  have hregister : Does s (register i.p2) b i.p2.toNat b := by
    intro l hl
    refine ⟨l, ?_, hl⟩
    have : i.p2 < (b.knowing s l).reach := by
      have : (b.knowing s l).reach = b.reach := rfl
      omega
    simp only [register, bind_of_ok get_run, wrapIndex?, h0, this, if_true]
    rfl
  have hset := does_setFlags (s := s) (b := b.withCell i.p2.toNat (b.cellAt i.p2.toNat).released)
    (i := i.p2.toNat) (by rwa [size_withCell]) .onlyInt
  rw [withCell_withCell, cellAt_withCell_self hlt] at hset
  exact hregister.bind ((does_releaseExtern _).bind (hset.bind does_prepared))

/-- After that the two banks show the same but for the payload of the output register, which the
instruction overwrites. -/
theorem prepare_second (h : b.Mirrors b') (hw : i.op.overwritesSecond = true) (h0 : 0 ≤ i.p2)
    {b₁ : Bank} (hrun : Machine.prepare i b = .ok () b₁) :
    ∃ b₁' p, Machine.prepare i b' = .ok () b₁' ∧ i.p2.toNat < b₁'.cells.size ∧
      b₁.Mirrors (b₁'.withCell i.p2.toNat ((b₁'.cellAt i.p2.toNat).withPayload p)) := by
  obtain ⟨ρ, live, s, s', ht, hu, hu'⟩ := h
  have hi : i.p2.toNat < b.reach := by
    unfold Machine.prepare at hrun
    simp only [hw, if_true] at hrun
    exact (register_bind_eq_ok h0 hrun).1
  have hlt : i.p2.toNat < b.cells.size := Nat.lt_of_lt_of_le hi ht.fits
  have hlt' : i.p2.toNat < b'.cells.size := ht.size ▸ hlt
  rw [← hu.knowing_self] at hrun hu
  obtain ⟨_, l, rfl, hl⟩ := (does_prepare_second hw h0 hi ht.fits).eq hu hrun
  obtain ⟨l', hrun', hl'⟩ := does_prepare_second (b := b') hw h0 (ht.reach ▸ hi)
    (ht.reach ▸ ht.size ▸ ht.fits) b'.ledger (hu'.knowing_self.symm ▸ hu')
  rw [hu'.knowing_self] at hrun'
  refine ⟨_, (b.cellAt i.p2.toNat).released.payload, hrun', by rwa [← size_withCell b'] at hlt', ?_⟩
  have hback : ((b'.withCell i.p2.toNat ((b'.cellAt i.p2.toNat).released.withFlags .onlyInt)).knowing s' l').withCell
      i.p2.toNat (((b'.cellAt i.p2.toNat).released.withFlags .onlyInt).withPayload
        (b.cellAt i.p2.toNat).released.payload) =
      (b'.withCell i.p2.toNat (((b'.cellAt i.p2.toNat).released.withFlags .onlyInt).withPayload
        (b.cellAt i.p2.toNat).released.payload)).knowing s' l' := by
    show ((b'.withCell _ _).withCell _ _).knowing s' l' = _
    rw [withCell_withCell]
  have htwins := ht.withCell hlt
    ((ht.sound i.p2.toNat).released.untextual (f := .onlyInt) _ rfl rfl (fun _ => rfl) nofun)
    ((ht.cells i.p2.toNat).released.remark (p := (b.cellAt i.p2.toNat).released.payload)
      ⟨false, rfl, nofun⟩ (fun _ => rfl) nofun)
  rw [cellAt_knowing, cellAt_withCell_self hlt', hback]
  exact ⟨ρ, live, s, s', htwins.knowing s s' l l', hl, hback ▸ hl'.withCell _ _⟩

end Bank

namespace Machine

variable {α β : Type} {m m' : Machine} {σ σ' : Status} {i : Instruction} {pc : Int}

/-- Whether an instruction chooses the next instruction or copies registers, and the numbers of its
registers, parameters and flags are not negative. -/
def steers (i : Instruction) : Bool :=
  match i.op with
  | .goto => true
  | .ifTrue | .ifNot | .isNull | .notNull | .ifPos | .ifZero | .once | .gosub | .returnTo
  | .initCoroutine | .yield | .endCoroutine | .realAffinity | .mustBeInt => 0 ≤ i.p1
  | .sCopy | .copy => 0 ≤ i.p1 && 0 ≤ i.p2
  | .real => 0 ≤ i.p2
  | .parameter => 0 < i.p1 && 0 ≤ i.p2
  | _ => false

/-- Two machines in the same state, as far as it can be seen, of which the first one follows the rules
that `σ` says and the second one those that `σ'` says. -/
structure Paired (σ σ' : Status) (m m' : Machine) : Prop where
  bank : m.bank.Mirrors m'.bank
  status : m.status = σ
  steered : ∀ i ∈ m.program, steers i = true
  rest : m' = { m with bank := m'.bank, status := σ' }

/-- If the first rule gets through, the second one does the same. -/
def Trails (σ σ' : Status) (x y : MachineM α) (m m' : Machine) : Prop :=
  ∀ a m₁, x m = .ok a m₁ → ∃ m₁', y m' = .ok a m₁' ∧ m₁.Paired σ σ' m₁'

theorem Paired.withBank (h : m.Paired σ σ' m') {b b' : Bank} (hb : b.Mirrors b') :
    (m.withBank b).Paired σ σ' (m'.withBank b') := by
  refine ⟨hb, h.status, h.steered, ?_⟩
  rw [h.rest]
  rfl

theorem Paired.program (h : m.Paired σ σ' m') : m'.program = m.program := by rw [h.rest]

theorem Paired.budget (h : m.Paired σ σ' m') : m'.budget = m.budget := by rw [h.rest]

theorem Paired.once_eq (h : m.Paired σ σ' m') : m'.once = m.once := by rw [h.rest]

theorem Paired.status' (h : m.Paired σ σ' m') : m'.status = σ' := by rw [h.rest]

theorem Paired.lift_on (h : m.Paired σ σ' m') {x y : BankM α} {b b' : Bank}
    (hxy : Bank.Follows x y b b') :
    Trails σ σ' (liftM x) (liftM y) (m.withBank b) (m'.withBank b') := by
  intro a m₁ hrun
  obtain ⟨b, hx, rfl⟩ := lift_eq_ok hrun
  obtain ⟨b', hy, hb⟩ := hxy a b hx
  exact ⟨_, lift_of_ok hy, h.withBank hb⟩

theorem Paired.lift (h : m.Paired σ σ' m') {x y : BankM α} (hxy : Bank.Follows x y m.bank m'.bank) :
    Trails σ σ' (liftM x) (liftM y) m m' := h.lift_on hxy

theorem Trails.bind {x y : MachineM α} {f g : α → MachineM β} (hxy : Trails σ σ' x y m m')
    (hfg : ∀ a m₁ m₁', m₁.Paired σ σ' m₁' → Trails σ σ' (f a) (g a) m₁ m₁') :
    Trails σ σ' (x >>= f) (y >>= g) m m' := by
  intro c m₂ hrun
  obtain ⟨a, m₁, hx, hf⟩ := bind_eq_ok hrun
  obtain ⟨m₁', hy, hm⟩ := hxy a m₁ hx
  rw [bind_of_ok hy]
  exact hfg a m₁ m₁' hm c m₂ hf

theorem Paired.pure (h : m.Paired σ σ' m') (a : α) : Trails σ σ' (pure a) (pure a) m m' := by
  intro c m₁ hrun
  cases hrun
  exact ⟨m', rfl, h⟩

theorem Trails.thenNext {x y : MachineM Unit} (h : Trails σ σ' x y m m') :
    Trails σ σ' (thenNext x) (thenNext y) m m' := h.bind fun _ _ _ hm => hm.pure _

theorem choose_of_direct {f : Family} {x y : MachineM α} (h : m.status.tracked f = false) :
    choose f x y m = y m := by
  simp only [choose, bind_of_ok get_run, h, Bool.false_eq_true, if_false]

/-- The families of the instructions that choose the next instruction or copy registers. -/
def steering : List Family :=
  [.condition, .isNull, .notNull, .ifPos, .ifZero, .once, .gosub, .returnTo, .initCoroutine, .yield,
    .endCoroutine, .sCopy, .copy, .real, .realAffinity, .mustBeInt, .parameter]

/-- The first status has the tracked rules of these families, the second one the direct rules. -/
def Opposed (σ σ' : Status) : Prop :=
  ∀ f ∈ steering, σ.tracked f = true ∧ σ'.tracked f = false

theorem Trails.choose {f : Family} {x y : MachineM α} (h : Trails σ σ' x y m m') (hσ : Opposed σ σ')
    (hf : f ∈ steering) (hm : m.status = σ) (hm' : m'.status = σ') :
    Trails σ σ' (choose f x y) (choose f x y) m m' := by
  intro a m₁ hrun
  rw [choose_of_tracked (by rw [hm]; exact (hσ f hf).1)] at hrun
  rw [choose_of_direct (by rw [hm']; exact (hσ f hf).2)]
  exact h a m₁ hrun

theorem Paired.views (h : m.Paired σ σ' m') : m'.views = m.views := by
  obtain ⟨_, _, _, _, ht, _⟩ := h.bank
  have hregisters : m'.registers = m.registers := by rw [h.rest]
  unfold Machine.views
  rw [hregisters]
  exact List.map_congr_left fun k _ => (ht.cells (k + 1)).view

/-- The end of a run: the two machines show the same for the last time. -/
structure Parted (σ' : Status) (m m' : Machine) : Prop where
  idle : ∃ s, m.bank.Unaware s
  idle' : ∃ s, m'.bank.Unaware s
  views : m'.views = m.views
  rest : m' = { m with bank := m'.bank, status := σ' }

theorem Paired.parted (h : m.Paired σ σ' m') : m.Parted σ' m' := by
  obtain ⟨_, _, s, s', _, hu, hu'⟩ := h.bank
  exact ⟨⟨s, hu⟩, ⟨s', hu'⟩, h.views, h.rest⟩

def retired (b : Bank) : Bank :=
  { b with cells := b.cells.mapIdx fun k c => if 1 ≤ k && k < b.reach then retire c else c }

theorem cellAt_retired (b : Bank) (k : Nat) :
    (retired b).cellAt k = if 1 ≤ k ∧ k < b.reach ∧ k < b.cells.size then retire (b.cellAt k) else b.cellAt k := by
  by_cases hk : k < b.cells.size
  · simp [retired, Bank.cellAt, hk]
  · simp [retired, Bank.cellAt, hk]

theorem view_retire (c : Cell) : (retire c).view = .undefined := rfl

theorem unaware_retired {b : Bank} {s : Sheet} (h : b.Unaware s) : (retired b).Unaware s where
  indexed := h.indexed
  current := h.current
  plain := h.plain
  width := by rw [retired, Array.size_mapIdx]; exact h.width
  ledger := h.ledger
  blank := by rw [retired, Array.size_mapIdx]; exact h.blank
  unused := h.unused
  off := h.off
  ongoing := h.ongoing

theorem Paired.retired (h : m.Paired σ σ' m') :
    (m'.withBank (retired m'.bank)).views = (m.withBank (retired m.bank)).views := by
  obtain ⟨_, _, _, _, ht, _⟩ := h.bank
  have hregisters : (m'.withBank (Machine.retired m'.bank)).registers =
      (m.withBank (Machine.retired m.bank)).registers := by rw [h.rest]; rfl
  unfold Machine.views
  rw [hregisters]
  refine List.map_congr_left fun k _ => ?_
  change ((Machine.retired m'.bank).cellAt (k + 1)).view = ((Machine.retired m.bank).cellAt (k + 1)).view
  rw [cellAt_retired, cellAt_retired, ht.reach, ht.size]
  split
  · rw [view_retire, view_retire]
  · exact (ht.cells (k + 1)).view

theorem Paired.abort (h : m.Paired σ σ' m') {code : Nat} {flow : Flow} {m₁ : Machine}
    (hrun : abort code m = .ok flow m₁) :
    ∃ m₁', abort code m' = .ok flow m₁' ∧ flow = .fail codeError ∧ m₁.Parted σ' m₁' := by
  cases hrun
  refine ⟨_, rfl, rfl, ?_, ?_, h.retired, ?_⟩
  · obtain ⟨_, _, s, _, _, hu, _⟩ := h.bank
    exact ⟨s, unaware_retired hu⟩
  · obtain ⟨_, _, _, s', _, _, hu'⟩ := h.bank
    exact ⟨s', unaware_retired hu'⟩
  · rw [h.rest]

/-- Where two machines stand after an instruction: after an error they need not go on together. -/
def Goes (σ σ' : Status) (flow : Flow) (m m' : Machine) : Prop :=
  match flow with
  | .fail _ => m.Parted σ' m'
  | _ => m.Paired σ σ' m'

theorem Paired.goes (h : m.Paired σ σ' m') (flow : Flow) : Goes σ σ' flow m m' := by
  cases flow with
  | fail code => exact h.parted
  | _ => exact h

theorem Goes.parted {flow : Flow} (h : Goes σ σ' flow m m') : m.Parted σ' m' := by
  cases flow with
  | fail code => exact h
  | next => exact Paired.parted h
  | jump target => exact Paired.parted h
  | leave code => exact Paired.parted h

/-- Ends an instruction that makes a register an integer. -/
def finish : Option Flow → MachineM Flow
  | some flow => return flow
  | none => abort codeMismatch

theorem direct_mustBeInt (i : Instruction) :
    Direct.mustBeInt i = liftM (Bank.integral i) >>= finish := by
  have hsettled : ∀ r : Nat, (do
      if (← Bank.cell r).flags.int then
        Bank.modifyCell r fun c => { c with flags := c.flags.retype .onlyInt }
        return .next
      else if i.p2 = 0 then abort codeMismatch
      else return .jump i.p2) = (liftM (Bank.settled i r) : MachineM (Option Flow)) >>= finish := by
    intro r
    simp only [Bank.settled, lift_bind, bind_assoc]
    refine congrArg _ (funext fun c => ?_)
    split
    · simp only [lift_bind, bind_assoc]
      rfl
    · split <;> rfl
  simp only [Direct.mustBeInt, Bank.integral, lift_bind, bind_assoc, hsettled]
  refine congrArg _ (funext fun r => congrArg _ (funext fun c => ?_))
  split
  · simp only [lift_bind, bind_assoc]
  · rfl

theorem tracked_mustBeInt (i : Instruction) :
    Tracked.mustBeInt i = liftM (Bank.trackedIntegral i) >>= finish := by
  simp only [Tracked.mustBeInt, Bank.trackedIntegral, lift_bind, bind_assoc, direct_mustBeInt]
  refine congrArg _ (funext fun r => congrArg _ (funext fun f => ?_))
  split
  · simp only [lift_bind, bind_assoc]
    rfl
  · simp only [lift_bind, bind_assoc]

theorem tracked_gosub {flow : Flow} {m₁ : Machine} (h : Tracked.gosub pc i m = .ok flow m₁) :
    (liftM (Bank.called pc i) : MachineM Flow) m = .ok flow m₁ := by
  simp only [Tracked.gosub, bind_of_ok get_run] at h
  simpa only [Bank.called, lift_bind, lift_check, lift_pure] using (check_bind_eq_ok h).2

theorem tracked_endCoroutine (m : Machine) (i : Instruction) :
    Tracked.endCoroutine i m = (liftM (Bank.Tracked.ended m.program i) : MachineM Flow) m := by
  simp only [Tracked.endCoroutine, Bank.Tracked.ended, lift_bind, lift_check, lift_pure, lift_expect]
  cases hr : Bank.register i.p1 m.bank with
  | ok r b =>
    rw [bind_of_ok (lift_of_ok hr), bind_of_ok (lift_of_ok hr), bind_of_ok get_run]
    rfl
  | error e b => rw [bind_of_error (lift_of_error hr), bind_of_error (lift_of_error hr)]

theorem direct_endCoroutine (m : Machine) (i : Instruction) :
    Direct.endCoroutine i m = (liftM (Bank.Direct.ended m.program i) : MachineM Flow) m := by
  simp only [Direct.endCoroutine, Bank.Direct.ended, lift_bind, lift_pure]
  cases hr : Bank.slot i.p1 m.bank with
  | ok r b =>
    rw [bind_of_ok (lift_of_ok hr), bind_of_ok (lift_of_ok hr),
      bind_of_ok (lift_of_ok (Bank.cell_run _ r)), bind_of_ok (lift_of_ok (Bank.cell_run _ r)),
      bind_of_ok get_run]
    rfl
  | error e b => rw [bind_of_error (lift_of_error hr), bind_of_error (lift_of_error hr)]

/-- Whether the registers that an instruction counts with or goes by are as it needs them. -/
def meets (b : Bank) (i : Instruction) : Bool :=
  match i.op with
  | .ifPos | .ifZero | .returnTo | .yield => b.counts i.p1.toNat
  | .endCoroutine => b.addresses i.p1.toNat
  | _ => true

/-- Both machines execute an instruction with the same answer. -/
def Moves (σ σ' : Status) (x : MachineM Flow) (m m' : Machine) : Prop :=
  ∀ flow m₁, x m = .ok flow m₁ → ∃ m₁', x m' = .ok flow m₁' ∧ Goes σ σ' flow m₁ m₁'

theorem Trails.moves {x : MachineM Flow} (h : Trails σ σ' x x m m') : Moves σ σ' x m m' := by
  intro flow m₁ hrun
  obtain ⟨m₁', hrun', hp⟩ := h flow m₁ hrun
  exact ⟨m₁', hrun', hp.goes flow⟩

theorem mutating_single (r : Int) (x : MachineM Flow) :
    mutating [r] x = do
      let flow ← x
      Bank.forgetAt r
      return flow := by
  simp only [mutating, List.forIn_cons, List.forIn_nil, bind_assoc, pure_bind]

theorem Trails.mutating {x : MachineM Flow} {r : Int} (h0 : 0 ≤ r) (hx : Trails σ σ' x x m m') :
    Trails σ σ' (mutating [r] x) (mutating [r] x) m m' := by
  rw [mutating_single]
  refine hx.bind fun flow m₁ m₁' h₁ => ?_
  exact (h₁.lift (Bank.forgetAt_follows h₁.bank h0)).bind fun _ _ _ h₂ => h₂.pure flow

theorem Paired.gosub (h : m.Paired σ σ' m') (h0 : 0 ≤ i.p1) :
    Trails σ σ' (Tracked.gosub pc i) (liftM (Direct.gosub pc i)) m m' := by
  intro flow m₁ hrun
  exact h.lift (Bank.called_follows h.bank h0) flow m₁ (tracked_gosub hrun)

theorem Paired.endCoroutine (h : m.Paired σ σ' m') (h0 : 0 ≤ i.p1) (hc : m.bank.addresses i.p1.toNat = true) :
    Trails σ σ' (Tracked.endCoroutine i) (Direct.endCoroutine i) m m' := by
  intro flow m₁ hrun
  rw [tracked_endCoroutine] at hrun
  rw [direct_endCoroutine, h.program]
  exact h.lift (Bank.ended_follows h.bank h0 hc) flow m₁ hrun

theorem Paired.once (h : m.Paired σ σ' m') :
    Trails σ σ' (Tracked.once i) (Direct.once i) m m' := by
  obtain ⟨b', rfl⟩ : ∃ b', m' = { m with bank := b', status := σ' } := ⟨_, h.rest⟩
  intro flow m₁ hrun
  simp only [Tracked.once, Direct.once, bind_of_ok get_run] at hrun ⊢
  obtain ⟨_, hrun⟩ := check_bind_eq_ok hrun
  split at hrun
  · rename_i hflag
    cases hrun
    exact ⟨_, by rw [if_pos hflag]; rfl, h⟩
  · rename_i hflag
    cases hrun
    refine ⟨{ m with bank := b', status := σ', once := m.once.setIfInBounds i.p1.toNat true }, ?_, h.bank,
      h.status, h.steered, rfl⟩
    rw [if_neg hflag]
    rfl

theorem Paired.mustBeInt (h : m.Paired σ σ' m') (hσ : Opposed σ σ') (h0 : 0 ≤ i.p1) :
    Moves σ σ' (choose .mustBeInt (Tracked.mustBeInt i) (Direct.mustBeInt i)) m m' := by
  intro flow m₁ hrun
  obtain ⟨ht, hd⟩ := hσ .mustBeInt (by decide)
  rw [choose_of_tracked (by rwa [h.status]), tracked_mustBeInt] at hrun
  rw [choose_of_direct (by rwa [h.rest]), direct_mustBeInt]
  obtain ⟨answer, m₂, hint, hrun⟩ := bind_eq_ok hrun
  obtain ⟨m₂', hint', h₂⟩ := h.lift (Bank.trackedIntegral_follows h.bank h0) answer m₂ hint
  rw [bind_of_ok hint']
  cases answer with
  | some f =>
    cases hrun
    exact ⟨m₂', rfl, h₂.goes _⟩
  | none =>
    obtain ⟨m₁', habort, rfl, hp⟩ := h₂.abort hrun
    exact ⟨m₁', habort, hp⟩

theorem Paired.moves (h : m.Paired σ σ' m') (hσ : Opposed σ σ') (hi : steers i = true) (hm : meets m.bank i = true)
    (hw : i.op.overwritesSecond = false) : Moves σ σ' (step pc i) m m' := by
  have hb := h.bank
  have choosing {f : Family} {x y : MachineM Flow} (hf : f ∈ steering) (hxy : Trails σ σ' x y m m') :
      Moves σ σ' (choose f x y) m m' := (hxy.choose hσ hf h.status h.status').moves
  have copying {f : Family} {x y : MachineM Unit} (hf : f ∈ steering) (hxy : Trails σ σ' x y m m') :
      Moves σ σ' (thenNext (choose f x y)) m m' := (hxy.choose hσ hf h.status h.status').thenNext.moves
  cases hop : i.op <;> simp only [steers, meets, hop, decide_eq_true_eq, Bool.and_eq_true,
    Bool.false_eq_true] at hi hm hw <;> simp only [step, hop]
  case goto => exact (h.pure _).moves
  case gosub => exact choosing (by decide) (h.gosub hi)
  case returnTo => exact choosing (by decide) (h.lift (Bank.returnTo_follows hb hi))
  case initCoroutine => exact choosing (by decide) (h.lift (Bank.initCoroutine_follows hb hi))
  case yield =>
    exact ((h.lift (Bank.yield_follows hb hi hm)).choose hσ (by decide) h.status h.status' |>.mutating hi).moves
  case endCoroutine => exact choosing (by decide) (h.endCoroutine hi hm)
  case isNull => exact choosing (by decide) (h.lift (Bank.isNull_follows hb hi))
  case notNull => exact choosing (by decide) (h.lift (Bank.notNull_follows hb hi))
  case once => exact choosing (by decide) h.once
  case ifTrue => exact choosing (by decide) (h.lift (Bank.condition_follows hb hi false))
  case ifNot => exact choosing (by decide) (h.lift (Bank.condition_follows hb hi true))
  case ifPos => exact choosing (by decide) (h.lift (Bank.ifPos_follows hb hi hm))
  case ifZero => exact choosing (by decide) (h.lift (Bank.ifZero_follows hb hi))
  case sCopy => exact copying (by decide) (h.lift (Bank.sCopy_follows hb hi.1 hi.2))
  case copy => exact copying (by decide) (h.lift (Bank.copy_follows hb hi.1 hi.2))
  case realAffinity => exact copying (by decide) (h.lift (Bank.realAffinity_follows hb hi))
  case mustBeInt => exact h.mustBeInt hσ hi
  case real => cases hw
  case parameter => cases hw

theorem Paired.execute_plain (h : m.Paired σ σ' m') (hσ : Opposed σ σ') (hi : steers i = true)
    (hm : meets m.bank i = true) (hw : i.op.overwritesSecond = false) : Moves σ σ' (execute pc i) m m' := by
  intro flow m₁ hrun
  obtain ⟨_, m₂, hprepare, hrun⟩ := bind_eq_ok hrun
  obtain ⟨m₂', hprepare', h₂⟩ := h.lift (h.bank.idle (fun _ => Bank.does_prepare hw) fun _ =>
    Bank.does_prepare hw) _ m₂ hprepare
  -- making ready has changed no cell
  have hm₂ : meets m₂.bank i = true := by
    obtain ⟨_, _, s, _, _, hu, _⟩ := h.bank
    obtain ⟨b, hb, rfl⟩ := lift_eq_ok hprepare
    rw [← hu.knowing_self] at hb hu
    obtain ⟨_, _, rfl, _⟩ := (Bank.does_prepare hw).eq hu hb
    exact hm
  rw [execute, bind_of_ok hprepare']
  exact h₂.moves hσ hi hm₂ hw flow m₁ hrun

theorem direct_real_withPayload {b : Bank} {x : Double} (h0 : 0 ≤ i.p2) (hr : i.p2.toNat < b.cells.size)
    (hx : i.p4 = .real x) (p : UInt64) :
    Direct.real i (b.withCell i.p2.toNat ((b.cellAt i.p2.toNat).withPayload p)) = Direct.real i b := by
  simp only [Direct.real, hx, bind_of_ok (Bank.slot_run h0), Bank.modifyCell_run,
    Bank.cellAt_withCell_self hr, Bank.withCell_withCell]
  rfl

theorem shallowCopy_withPayload (loan : Cell.Loan) (src c : Cell) (p : UInt64) :
    Cell.shallowCopy loan src (c.withPayload p) = Cell.shallowCopy loan src c := by
  have hflags : (c.withPayload p).flags = c.flags := rfl
  simp only [Cell.shallowCopy, Cell.released, hflags]
  split <;> rfl

theorem direct_parameter_withPayload {b : Bank} (h0 : 0 ≤ i.p2) (hr : i.p2.toNat < b.cells.size)
    (hlt : i.p2.toNat < b.reach) (p : UInt64) :
    Direct.parameter i (b.withCell i.p2.toNat ((b.cellAt i.p2.toNat).withPayload p)) =
      Direct.parameter i b := by
  have hsource : (b.withCell i.p2.toNat ((b.cellAt i.p2.toNat).withPayload p)).cellAt
      (b.reach + (i.p1 - 1).toNat) = b.cellAt (b.reach + (i.p1 - 1).toNat) := by
    rw [Bank.cellAt_withCell hr, if_neg (by omega)]
  simp only [Direct.parameter, bind_of_ok get_run, bind_of_ok (Bank.cell_run _ _),
    bind_of_ok (Bank.slot_run h0), Bank.modifyCell_run]
  rw [Bank.cellAt_withCell_self hr, Bank.withCell_withCell, show (b.withCell _ _).reach = b.reach from rfl,
    hsource, shallowCopy_withPayload]

theorem real_prepared {b b' : Bank} {p : UInt64} (h0 : 0 ≤ i.p2)
    (hr : i.p2.toNat < b'.cells.size)
    (h : b.Mirrors (b'.withCell i.p2.toNat ((b'.cellAt i.p2.toNat).withPayload p))) :
    Bank.Follows (Tracked.real i) (Direct.real i) b b' := by
  intro a b₁ hrun
  cases hx : i.p4 with
  | real x =>
    rw [← direct_real_withPayload h0 hr hx p]
    exact Bank.real_follows h h0 a b₁ hrun
  | _ =>
    simp only [Tracked.real, hx] at hrun
    obtain ⟨_, _, _, hrun⟩ := bind_eq_ok hrun
    obtain ⟨_, _, _, hrun⟩ := bind_eq_ok hrun
    cases hrun

theorem parameter_prepared {b b' : Bank} {p : UInt64} (h1 : 0 < i.p1) (h2 : 0 ≤ i.p2)
    (hr : i.p2.toNat < b'.cells.size)
    (h : b.Mirrors (b'.withCell i.p2.toNat ((b'.cellAt i.p2.toNat).withPayload p))) :
    Bank.Follows (Tracked.parameter i) (do Bank.forgetAll; Direct.parameter i) b b' := by
  have hlt {a : Unit} {b₁ : Bank} (hrun : Tracked.parameter i b = .ok a b₁) : i.p2.toNat < b'.reach := by
    obtain ⟨_, _, _, _, ht, _⟩ := h
    have := ht.reach
    exact this ▸ (Bank.register_bind_eq_ok h2 (Bank.parameter_bind_eq_ok (by omega) hrun)).1
  obtain ⟨hd, hforget', hforget⟩ : ∃ hd : Holder,
      Bank.forgetAll b' = .ok () { b' with holder := hd } ∧
      ∀ c, Bank.forgetAll (b'.withCell i.p2.toNat c) =
        .ok () ({ b' with holder := hd }.withCell i.p2.toNat c) := ⟨_, rfl, fun _ => rfl⟩
  intro a b₁ hrun
  obtain ⟨b₂, hb₂, h₂⟩ := h.forgetAll
  rw [hforget] at hb₂
  cases hb₂
  obtain ⟨b₁', hrun', h₁⟩ := Bank.parameter_follows h₂ h1 h2 a b₁ hrun
  refine ⟨b₁', ?_, h₁⟩
  rw [bind_of_ok hforget', ← hrun']
  exact (direct_parameter_withPayload (b := { b' with holder := hd }) h2 hr (hlt hrun) p).symm

theorem output_of_steers (hi : steers i = true) (hw : i.op.overwritesSecond = true) :
    i.op = .real ∧ 0 ≤ i.p2 ∨ i.op = .parameter ∧ 0 < i.p1 ∧ 0 ≤ i.p2 := by
  cases hop : i.op <;> simp only [steers, hop, decide_eq_true_eq, Bool.and_eq_true, Bool.false_eq_true] at hi hw
  case real => exact .inl ⟨rfl, hi⟩
  case parameter => exact .inr ⟨rfl, hi⟩
  all_goals cases hw

theorem Paired.execute_output (h : m.Paired σ σ' m') (hσ : Opposed σ σ') (hi : steers i = true)
    (hw : i.op.overwritesSecond = true) : Moves σ σ' (execute pc i) m m' := by
  have h0 : 0 ≤ i.p2 := by obtain ⟨_, h0⟩ | ⟨_, _, h0⟩ := output_of_steers hi hw <;> exact h0
  intro flow m₁ hrun
  obtain ⟨_, m₂, hprepare, hrun⟩ := bind_eq_ok hrun
  obtain ⟨b₂, hready, rfl⟩ := lift_eq_ok hprepare
  obtain ⟨b₂', p, hready', hr, hb₂⟩ := Bank.prepare_second h.bank hw h0 hready
  rw [execute, bind_of_ok (lift_of_ok hready')]
  obtain ⟨hop, _⟩ | ⟨hop, h1, _⟩ := output_of_steers hi hw
  · have hx := h.lift_on (real_prepared h0 hr hb₂)
    simp only [step, hop] at hrun ⊢
    exact (hx.choose hσ (by decide) h.status h.status').thenNext.moves flow m₁ hrun
  · have hx := h.lift_on (parameter_prepared h1 h0 hr hb₂)
    rw [lift_bind] at hx
    simp only [step, hop] at hrun ⊢
    exact (hx.choose hσ (by decide) h.status h.status').thenNext.moves flow m₁ hrun

theorem Paired.execute (h : m.Paired σ σ' m') (hσ : Opposed σ σ') (hi : steers i = true)
    (hm : meets m.bank i = true) : Moves σ σ' (execute pc i) m m' := by
  cases hw : i.op.overwritesSecond with
  | true => exact h.execute_output hσ hi hw
  | false => exact h.execute_plain hσ hi hm hw

/-- Two courses that two machines have taken, and where they stand. -/
inductive Abreast (σ σ' : Status) : Course → Machine → Course → Machine → Prop
  | going {pc : Int} {sheet sheet' : Option Sheet} {m m' : Machine}
      (h : (m.revealed sheet).Paired σ σ' (m'.revealed sheet')) :
      Abreast σ σ' (.going pc sheet) m (.going pc sheet') m'
  | ended {code : Nat} {m m' : Machine} (h : m.Parted σ' m') :
      Abreast σ σ' (.ended code) m (.ended code) m'

theorem Paired.settleTrace (h : m.Paired σ σ' m') : m.settleTrace.Paired σ σ' m'.settleTrace := by
  rw [settleTrace_eq m, settleTrace_eq m', h.views]
  refine ⟨h.bank, h.status, h.steered, ?_⟩
  rw [h.rest]

theorem Paired.entered {sheet sheet' : Option Sheet}
    (h : (m.revealed sheet).Paired σ σ' (m'.revealed sheet')) (pc : Int) (i : Instruction) :
    (m.entered pc i sheet).Paired σ σ' (m'.entered pc i sheet') := by
  have hbudget : m'.budget = m.budget := h.budget
  have ht := h.settleTrace
  refine ⟨ht.bank, ht.status, ht.steered, ?_⟩
  rw [Machine.entered, Machine.enterTrace, ht.rest, hbudget]
  rfl

theorem Paired.conclude (h : m.Paired σ σ' m') :
    Trails σ σ' (liftM (conclude i)) (liftM (conclude i)) m m' :=
  h.lift (h.bank.idle (fun _ => Bank.does_conclude) fun _ => Bank.does_conclude)

theorem conclude_eq_ok {s : Sheet} (hu : m.bank.Unaware s) :
    ∃ l, (liftM (conclude i) : MachineM Unit) m = .ok () (m.withBank (m.bank.knowing s l)) ∧
      (m.bank.knowing s l).Unaware s := by
  obtain ⟨l, hrun, hl⟩ := Bank.does_conclude (b := m.bank) (s := s) (i := i) m.bank.ledger
    (by rwa [hu.knowing_self])
  rw [hu.knowing_self] at hrun
  exact ⟨l, lift_of_ok hrun, hl⟩

theorem Parted.conclude (h : m.Parted σ' m') {a : Unit} {m₁ : Machine}
    (hrun : (liftM (conclude i) : MachineM Unit) m = .ok a m₁) :
    ∃ m₁', (liftM (conclude i) : MachineM Unit) m' = .ok a m₁' ∧ m₁.Parted σ' m₁' := by
  obtain ⟨⟨s, hu⟩, ⟨s', hu'⟩, hviews, hrest⟩ := h
  obtain ⟨l, hconclude, hl⟩ := conclude_eq_ok (i := i) hu
  obtain ⟨l', hconclude', hl'⟩ := conclude_eq_ok (i := i) hu'
  rw [hconclude] at hrun
  cases hrun
  refine ⟨_, hconclude', ⟨s, hl⟩, ⟨s', hl'⟩, hviews, ?_⟩
  rw [hrest]
  rfl

theorem revealed_of_unaware {s : Sheet} (h : m.bank.Unaware s) :
    m.revealed m.bank.holder.current? = m := by
  have hinside := h.inside
  obtain ⟨⟨cells, ⟨blank, outside, inside, useCache⟩, ledger, reach, indexed, fresh⟩, _⟩ := m
  obtain rfl : inside = some (some s) := hinside
  rfl

theorem Paired.going (h : m.Paired σ σ' m') (pc : Int) :
    Abreast σ σ' (.going pc m.bank.holder.current?) m (.going pc m'.bank.holder.current?) m' := by
  obtain ⟨_, _, s, s', _, hu, hu'⟩ := h.bank
  refine .going ?_
  rwa [revealed_of_unaware hu, revealed_of_unaware hu']

theorem Paired.going_hidden (h : m.Paired σ σ' m') (pc : Int) :
    Abreast σ σ' (.going pc m.bank.holder.current?) m.hidden
      (.going pc m'.bank.holder.current?) m'.hidden := by
  cases h.going pc with
  | going h₁ => exact .going h₁

theorem Goes.settle {flow : Flow} (h : Goes σ σ' flow m m') {c : Course} {m₁ : Machine}
    (hrun : settle pc i flow m = .ok c m₁) :
    ∃ c' m₁', Machine.settle pc i flow m' = .ok c' m₁' ∧ Abreast σ σ' c m₁ c' m₁' := by
  obtain ⟨code, rfl, rfl, rfl⟩ | ⟨m₂, hconclude, hrun⟩ := settle_eq_ok hrun
  · exact ⟨_, _, rfl, .ended h.parted⟩
  cases flow with
  | leave code =>
    cases hrun
    exact ⟨_, _, rfl, .ended h.parted⟩
  | fail code =>
    obtain ⟨m₂', hconclude', h₂⟩ := Parted.conclude h hconclude
    rw [settle_fail_of hconclude] at hrun
    cases hrun
    exact ⟨_, m₂', settle_fail_of hconclude' code, .ended h₂⟩
  | next =>
    obtain ⟨m₂', hconclude', h₂⟩ := Paired.conclude h _ m₂ hconclude
    rw [settle_next_of hconclude] at hrun
    cases hrun
    exact ⟨_, m₂', settle_next_of hconclude', h₂.going _⟩
  | jump target =>
    obtain ⟨m₂', hconclude', h₂⟩ := Paired.conclude h _ m₂ hconclude
    rw [settle_jump_of hconclude] at hrun
    cases hrun
    refine ⟨_, _, settle_jump_of hconclude' target, ?_⟩
    split
    · exact h₂.going_hidden target
    · exact h₂.going target

theorem Paired.turn {sheet sheet' : Option Sheet}
    (h : (m.revealed sheet).Paired σ σ' (m'.revealed sheet')) (hσ : Opposed σ σ')
    (hm : ∀ i, fetch pc m = .ok i m → meets m.bank i = true) {c : Course} {m₁ : Machine} (hrun : turn pc sheet m = .ok c m₁) :
    ∃ c' m₁', Machine.turn pc sheet' m' = .ok c' m₁' ∧ Abreast σ σ' c m₁ c' m₁' := by
  obtain ⟨i, flow, m₂, hfetch, hb, hmem, hx, hs⟩ := turn_eq_ok hrun
  have hbudget : m'.budget = m.budget := h.budget
  have hmeets : meets (m.entered pc i sheet).bank i = true := by
    rw [bank_entered]
    exact hm i hfetch
  obtain ⟨m₂', hx', hgoes⟩ := (h.entered pc i).execute hσ (h.steered i hmem) hmeets flow m₂ hx
  obtain ⟨c', m₁', hs', habreast⟩ := hgoes.settle hs
  refine ⟨c', m₁', ?_, habreast⟩
  have hprogram : m'.program = m.program := h.program
  rw [turn_run (fetch_congr hprogram hfetch) (by rwa [hbudget]), bind_of_ok hx', hs']

/-- What is seen of a run after an instruction: where it goes on or how it ended, what the registers
show, and the flags of what is to be done once. -/
structure Sight where
  course : Course
  views : List View
  once : Array Bool
  deriving DecidableEq

def Course.bare : Course → Course
  | .ended code => .ended code
  | .going pc _ => .going pc none

def sight (c : Course) (m : Machine) : Sight := ⟨c.bare, m.views, m.once⟩

/-- The first `n` turns of a run and what is seen after each of them. -/
def watch : Nat → Course → MachineM (List Sight)
  | 0, _ => return []
  | _ + 1, .ended _ => return []
  | n + 1, .going pc sheet => do
    let c ← turn pc sheet
    let seen := sight c (← get)
    return seen :: (← watch n c)

/-- Whether in the next `n` turns every instruction finds the registers that it goes by as it needs
them. -/
def heeds : Nat → Course → Machine → Bool
  | 0, _, _ => true
  | _ + 1, .ended _, _ => true
  | n + 1, .going pc sheet, m =>
    (match fetch pc m with
      | .ok i _ => meets m.bank i
      | .error _ _ => true) &&
    match turn pc sheet m with
      | .ok c m₁ => heeds n c m₁
      | .error _ _ => true

theorem heeds_going {n : Nat} {sheet : Option Sheet} (h : heeds (n + 1) (.going pc sheet) m = true) :
    (∀ i, fetch pc m = .ok i m → meets m.bank i = true) ∧
      ∀ c m₁, turn pc sheet m = .ok c m₁ → heeds n c m₁ = true := by
  rw [heeds, Bool.and_eq_true] at h
  refine ⟨fun i hi => ?_, fun c m₁ hc => ?_⟩
  · have := h.1
    rwa [hi] at this
  · have := h.2
    rwa [hc] at this

theorem heeds_of_le {n k : Nat} {c : Course} (hn : k ≤ n) (h : heeds n c m = true) :
    heeds k c m = true := by
  induction k generalizing n c m with
  | zero => rw [heeds]
  | succ k ih =>
    obtain ⟨n, rfl⟩ : ∃ j, n = j + 1 := ⟨n - 1, by omega⟩
    cases c with
    | ended code => rw [heeds]
    | going pc sheet =>
      obtain ⟨hmeets, hrest⟩ := heeds_going h
      rw [heeds, Bool.and_eq_true]
      refine ⟨?_, ?_⟩
      · split
        · rename_i i m₁ hi
          obtain ⟨rfl, _⟩ := fetch_eq_ok hi
          exact hmeets i hi
        · rfl
      · split
        · rename_i c m₁ hc
          exact ih (by omega) (hrest c m₁ hc)
        · rfl

theorem Abreast.sight {c c' : Course} (h : Abreast σ σ' c m c' m') : sight c' m' = sight c m := by
  cases h with
  | going h =>
    have hviews : m'.views = m.views := h.views
    have honce : m'.once = m.once := h.once_eq
    simp only [Machine.sight, Course.bare, hviews, honce]
  | ended h =>
    have honce : m'.once = m.once := by rw [h.rest]
    simp only [Machine.sight, h.views, honce]

theorem Abreast.watch {n : Nat} {c c' : Course} (h : Abreast σ σ' c m c' m') (hσ : Opposed σ σ')
    (hv : heeds n c m = true) {seen : List Sight} {m₁ : Machine} (hrun : watch n c m = .ok seen m₁) :
    ∃ m₁', Machine.watch n c' m' = .ok seen m₁' := by
  induction n generalizing c c' m m' seen m₁ with
  | zero =>
    cases hrun
    exact ⟨m', rfl⟩
  | succ n ih =>
    cases h with
    | ended h =>
      cases hrun
      exact ⟨m', rfl⟩
    | going h =>
      obtain ⟨c₁, m₂, hturn, hrun⟩ := bind_eq_ok hrun
      obtain ⟨c₁', m₂', hturn', h₂⟩ := h.turn hσ (heeds_going hv).1 hturn
      rw [bind_of_ok get_run] at hrun
      obtain ⟨rest, m₃, hwatch, hrun⟩ := bind_eq_ok hrun
      cases hrun
      obtain ⟨m₃', hwatch'⟩ := ih h₂ ((heeds_going hv).2 c₁ m₂ hturn) hwatch
      refine ⟨m₃', ?_⟩
      rw [Machine.watch, bind_of_ok hturn', bind_of_ok get_run, h₂.sight, bind_of_ok hwatch']
      rfl

theorem Abreast.loop {n : Nat} {c c' : Course} (h : Abreast σ σ' c m c' m') (hσ : Opposed σ σ')
    (hv : heeds n c m = true) {code : Nat} {m₁ : Machine} (hrun : loop n c m = .ok code m₁) :
    ∃ m₁', Machine.loop n c' m' = .ok code m₁' ∧ m₁.Parted σ' m₁' := by
  induction n generalizing c c' m m' m₁ with
  | zero =>
    cases h with
    | ended h =>
      cases hrun
      exact ⟨m', rfl, h⟩
    | going h => cases hrun
  | succ n ih =>
    cases h with
    | ended h =>
      cases hrun
      exact ⟨m', rfl, h⟩
    | going h =>
      obtain ⟨c₁, m₂, hturn, hrun⟩ := bind_eq_ok hrun
      obtain ⟨c₁', m₂', hturn', h₂⟩ := h.turn hσ (heeds_going hv).1 hturn
      rw [Machine.loop, bind_of_ok hturn']
      exact ih h₂ ((heeds_going hv).2 c₁ m₂ hturn) hrun

end Machine

/-- The names that a cell knows are below `n`. -/
def Cell.Named (n : Nat) (c : Cell) : Prop :=
  (∀ x, c.own = some x → x < n) ∧ ∀ d, c.data = some d → d.name < n

/-- Before a run in which nothing may be known; the cells are as the rules leave them. -/
structure Bank.Waiting (b : Bank) : Prop where
  idle : b.holder.inside = none
  off : b.holder.useCache = false
  keeps : ∃ s, b.Keeps s
  fits : b.reach ≤ b.cells.size
  sound : ∃ live, ∀ k, (b.cellAt k).Sound live
  named : ∀ k, (b.cellAt k).Named b.fresh

theorem Cell.Sound.twin {live : Nat → Prop} {c : Cell} {n : Nat} (h : c.Sound live) (hn : c.Named n) :
    c.Twin (Naming.same n) c where
  flags := ⟨c.flags.ephem, rfl, h.lasting⟩
  word _ := rfl
  zeros _ := rfl
  size := rfl
  room := rfl
  own := by
    cases ho : c.own with
    | none => exact .none
    | some x => exact .some ⟨rfl, hn.1 x ho⟩
  data := by
    cases hd : c.data with
    | none => exact .none
    | some d => exact .some ⟨⟨rfl, hn.2 d hd⟩, rfl⟩

/-- A cell as it is given to a machine: without a value, zero bytes or a value in a buffer of its own. -/
inductive Cell.Supplied (n : Nat) : Cell → Prop
  | undefined : Supplied n {}
  | zeros (k : Int) : Supplied n (.ofZeros k)
  | value {name : Nat} (h : name < n) (v : Value) : Supplied n (.ofValue name v)

theorem Cell.Supplied.sound {n : Nat} {c : Cell} (h : c.Supplied n) : c.Sound fun _ => True := by
  cases h with
  | undefined => exact ⟨nofun, nofun, nofun, nofun, nofun, nofun⟩
  | zeros k => exact ⟨nofun, fun _ => ⟨rfl, rfl, rfl⟩, nofun, nofun, nofun, nofun⟩
  | value h v =>
    have hroom (b : Bytes) : capacity b.length ≠ 0 := Nat.ne_of_gt (Cell.capacity_pos _)
    cases v with
    | null => exact ⟨nofun, nofun, nofun, nofun, nofun, nofun⟩
    | int k => exact ⟨fun _ => rfl, nofun, nofun, nofun, nofun, nofun⟩
    | real x => exact ⟨nofun, nofun, nofun, nofun, nofun, nofun⟩
    | text b => exact ⟨nofun, nofun, nofun, fun _ _ => rfl, fun _ _ => ⟨fun _ => hroom b, fun _ => trivial⟩,
        fun _ _ _ => trivial⟩
    | blob b => exact ⟨nofun, nofun, nofun, fun _ _ => rfl, fun _ _ => ⟨fun _ => hroom b, fun _ => trivial⟩,
        fun _ _ _ => trivial⟩

theorem Cell.Supplied.named {n : Nat} {c : Cell} (h : c.Supplied n) : c.Named n := by
  cases h with
  | undefined => exact ⟨nofun, nofun⟩
  | zeros k => exact ⟨nofun, nofun⟩
  | value h v =>
    cases v with
    | null => exact ⟨nofun, nofun⟩
    | int k => exact ⟨nofun, nofun⟩
    | real x => exact ⟨nofun, nofun⟩
    | text b => exact ⟨fun x hx => by cases hx; exact h, fun d hd => by cases hd; exact h⟩
    | blob b => exact ⟨fun x hx => by cases hx; exact h, fun d hd => by cases hd; exact h⟩

namespace Bank

theorem getD_foldl_set {P : Cell → Prop} (xs : List (Nat × Cell)) (cells : Array Cell)
    (hxs : ∀ x ∈ xs, P x.2) (h : ∀ k, P (cells.getD k {})) (k : Nat) :
    P ((xs.foldl (fun cells x => cells.setIfInBounds x.1 x.2) cells).getD k {}) := by
  induction xs generalizing cells with
  | nil => exact h k
  | cons x xs ih =>
    refine ih _ (fun y hy => hxs y (List.mem_cons_of_mem x hy)) fun j => ?_
    rw [Array.getD_eq_getD_getElem?, Array.getElem?_setIfInBounds]
    split
    · split
      · exact hxs x List.mem_cons_self
      · rename_i hx
        have := h cells.size
        simpa [Array.getD_eq_getD_getElem?] using this
    · rw [← Array.getD_eq_getD_getElem?]
      exact h j

theorem waiting_ofSetup {s : Setup} (h : ∀ x ∈ s.initial, x.2.Supplied s.fresh)
    (hc : s.useCache = false) : (Machine.ofSetup s).bank.Waiting := by
  have hcells (k : Nat) : ((Machine.ofSetup s).bank.cellAt k).Sound (fun _ => True) ∧
      ((Machine.ofSetup s).bank.cellAt k).Named s.fresh := by
    refine getD_foldl_set (P := fun c => c.Sound (fun _ => True) ∧ c.Named s.fresh) s.initial _
      (fun x hx => ⟨(h x hx).sound, (h x hx).named⟩) (fun j => ?_) k
    have hblank : Cell.Supplied s.fresh {} := .undefined
    have hnull : Cell.null.Sound (fun _ => True) ∧ Cell.null.Named s.fresh :=
      ⟨⟨nofun, nofun, nofun, nofun, nofun, nofun⟩, nofun, nofun⟩
    simp only [Array.getD_eq_getD_getElem?, Array.getElem?_append, Array.getElem?_replicate]
    split_ifs <;> first | exact hnull | exact ⟨hblank.sound, hblank.named⟩
  have hk := keeps_ofCells (Machine.ofSetup s).bank.cells s.useCache s.fresh
  exact ⟨rfl, hc, ⟨_, hk.indexed, hk.current, hk.plain, hk.width, hk.ledger, hk.blank, hk.unused⟩, by
    rw [show (Machine.ofSetup s).bank.cells.size = _ from size_foldl_set s.initial _, Array.size_append,
      Array.size_replicate]
    exact Nat.le_add_right _ _, ⟨_, fun k => (hcells k).1⟩, fun k => (hcells k).2⟩

end Bank

namespace Machine

variable {m : Machine} {σ' : Status}

def following (m : Machine) (σ : Status) : Machine := { m with status := σ }

theorem started_abreast (h : m.bank.Waiting) (hp : ∀ i ∈ m.program, steers i = true) (σ' : Status) :
    Abreast m.status.freeze σ'.freeze m.outset m.started m.outset (m.following σ').started := by
  obtain ⟨s, hs⟩ := h.keeps
  obtain ⟨live, hsound⟩ := h.sound
  have hcurrent : m.bank.holder.current? = some s := hs.current
  have houtside : m.bank.holder.outside = some s := by
    rw [Holder.current?, h.idle] at hcurrent
    exact hcurrent
  have hu : (m.started.revealed (some s)).bank.Unaware s :=
    { indexed := hs.indexed, current := rfl, plain := hs.plain, width := hs.width, ledger := hs.ledger
      blank := hs.blank, unused := hs.unused, off := h.off, ongoing := ⟨rfl, rfl⟩ }
  have htwins : (m.started.revealed (some s)).bank.Twins (Naming.same m.bank.fresh) live
      (m.started.revealed (some s)).bank :=
    { size := rfl, reach := rfl, fits := h.fits, names := Naming.same_oneToOne _, sound := hsound
      cells := fun k => (hsound k).twin (h.named k) }
  rw [outset, hcurrent]
  exact .going ⟨⟨_, _, s, s, htwins, hu, hu⟩, rfl, hp, rfl⟩

theorem Parted.prepareReturn {m m' : Machine} (h : m.Parted σ' m') {a : Unit} {m₁ : Machine}
    (hrun : (liftM Bank.prepareReturn : MachineM Unit) m = .ok a m₁) :
    ∃ m₁', (liftM Bank.prepareReturn : MachineM Unit) m' = .ok a m₁' ∧ m₁'.views = m₁.views ∧
      m₁'.once = m₁.once := by
  obtain ⟨⟨s, hu⟩, ⟨s', hu'⟩, hviews, hrest⟩ := h
  rw [prepareReturn_run hu.ongoing.2] at hrun
  cases hrun
  refine ⟨_, prepareReturn_run hu'.ongoing.2, hviews, ?_⟩
  rw [hrest]
  rfl

/-- A coroutine that takes a parameter, a subroutine, and a number that is not an integer at the end. -/
def coroutines (tracked : Bool) : Machine :=
  ofSetup {
    registers := 6
    parameters := 1
    onceFlags := 1
    program := #[
      ⟨.once, 0, 2, 0, .none, 0⟩,
      ⟨.initCoroutine, 1, 4, 6, .none, 0⟩,
      ⟨.mustBeInt, 4, 0, 0, .none, 0⟩,
      ⟨.goto, 0, 2, 0, .none, 0⟩,
      ⟨.yield, 1, 0, 0, .none, 0⟩,
      ⟨.ifPos, 2, 10, 0, .none, 0⟩,
      ⟨.parameter, 1, 2, 0, .none, 0⟩,
      ⟨.copy, 2, 3, 0, .none, 0⟩,
      ⟨.mustBeInt, 2, 0, 0, .none, 0⟩,
      ⟨.yield, 1, 2, 0, .none, 0⟩,
      ⟨.real, 0, 4, 0, .real ⟨0x4004000000000000⟩, 0⟩,
      ⟨.gosub, 5, 13, 0, .none, 0⟩,
      ⟨.endCoroutine, 1, 0, 0, .none, 0⟩,
      ⟨.sCopy, 3, 6, 0, .none, 0⟩,
      ⟨.returnTo, 5, 0, 0, .none, 0⟩]
    initial := [(7, .ofValue 0 (.text [49, 50]))]
    fresh := 1
    useCache := false
    status := { useFlagCache := false, tracked := fun _ => tracked }
    database := default }

end Machine

end QueryMachine
