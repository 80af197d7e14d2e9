import Mathlib
import QueryMachine.Proofs.Flows
import QueryMachine.Proofs.Renewal

/-!
Result rows. The columns of a statement are registers counted from a first one. A run that ends with a row
says which register that is only if it follows the tracked rule; every other run takes the register before
the first one for it, and a reset leaves it as it is. Whether there is a row only matters to the number of
columns.
-/

namespace QueryMachine.Machine

open Bank

variable {α : Type} {m m₁ m₂ : Machine} {pc : Int} {sheet : Option Sheet} {i : Instruction} {c : Course}

/-- What the tracked rule does to each register of a row. -/
def handOut (i : Instruction) (k : Nat) : MachineM Unit := do
  let r ← register (i.p1 + k)
  check (← isValid r)
  if (← flags r).ephem then makeWriteable r
  nulTerminate r

theorem banking_handOut (i : Instruction) (k : Nat) : banking.Keeps (handOut i k) := by
  refine (banking_lift _).bind fun r => (banking_lift _).bind fun _ => (Frame.Keeps.check _).bind fun _ => ?_
  exact (banking_lift _).bind fun _ => .ite ((banking_lift _).bind fun _ => banking_lift _) (banking_lift _)

theorem abiding_handOut_one (i : Instruction) (k : Nat) : (abiding fun _ => True).Keeps (handOut i k) := by
  grind [handOut]

theorem banking_handOuts (i : Instruction) (ks : List Nat) : banking.Keeps (forM ks (handOut i)) := by
  rw [← forIn_eq_forM]
  exact .forIn fun k _ => (banking_handOut i k).bind fun _ => .pure _

theorem banking_directHandOuts (i : Instruction) :
    banking.Keeps (forIn (List.range i.p2.toNat) PUnit.unit fun (k : Nat) _ => do
      let r ← slot (i.p1 + k)
      if (← cell r).flags.ephem then modifyCellWith r Cell.makeWriteable
      modifyCellWith r Cell.nulTerminate
      pure (ForInStep.yield PUnit.unit) : MachineM PUnit) := by
  refine .forIn fun k _ => (banking_lift _).bind fun r => (banking_lift _).bind fun c => ?_
  exact .ite ((banking_lift _).bind fun _ => (banking_lift _).bind fun _ => .pure _)
    ((banking_lift _).bind fun _ => .pure _)

theorem registers_of_handOut {ks : List Nat} (h : forM ks (handOut i) m = .ok ⟨⟩ m₁) :
    ∀ k ∈ ks, (wrapIndex? m.bank.reach (i.p1 + k)).isSome := by
  induction ks generalizing m with
  | nil => exact fun k hk => absurd hk List.not_mem_nil
  | cons k ks ih =>
    rw [List.forM_cons] at h
    obtain ⟨_, m₂, hk, h⟩ := bind_eq_ok h
    have hreach : m₂.bank.reach = m.bank.reach := by
      have habide := abiding_handOut_one i k m
      rw [after_of_ok hk] at habide
      exact habide.bank.reach
    intro j hj
    rcases List.mem_cons.mp hj with rfl | hj
    · obtain ⟨r, m₃, hr, -⟩ := bind_eq_ok hk
      obtain ⟨b, hr, -⟩ := lift_eq_ok hr
      cases hw : wrapIndex? m.bank.reach (i.p1 + j) with
      | none =>
        simp only [register, bind_of_ok get_run, hw] at hr
        cases hr
      | some k => rfl
    · rw [← hreach]
      exact ih h j hj

theorem forIn_handOut (i : Instruction) (ks : List Nat) :
    (forIn ks PUnit.unit fun (k : Nat) _ => do
      let r ← register (i.p1 + k)
      check (← isValid r)
      if (← flags r).ephem then makeWriteable r
      nulTerminate r
      pure (ForInStep.yield PUnit.unit) : MachineM PUnit) = forM ks (handOut i) := by
  rw [← forIn_eq_forM]
  refine congrArg _ (funext fun k => funext fun _ => ?_)
  simp only [handOut, bind_assoc]
  refine bind_congr fun r => bind_congr fun _ => bind_congr fun _ => bind_congr fun f => ?_
  split
  · rw [bind_assoc]
  · rfl

/-- The machine after a row has been handed out by the instruction at `pc`. -/
def suspended (m : Machine) (pc first : Int) (b : Bank) : Machine :=
  { m with bank := b, stamp := (m.stamp + 2) ||| 1, result := first, hasRow := true, pc := pc + 1 }

theorem tracked_resultRow_eq_ok {flow : Flow} (h : Tracked.resultRow pc i m = .ok flow m₁) :
    flow = .leave codeRow ∧ (m.width : Int) = i.p2 ∧
      (∀ k < m.width, (wrapIndex? m.bank.reach (i.p1 + k)).isSome) ∧ m₁ = m.suspended pc i.p1 m₁.bank := by
  rw [Tracked.resultRow, bind_of_ok get_run] at h
  obtain ⟨hwidth, h⟩ := check_bind_eq_ok h
  have hwidth : (m.width : Int) = i.p2 := by simpa using hwidth
  rw [Step.renewStamp, bind_of_ok (modify_run _), bind_of_ok (modify_run _)] at h
  obtain ⟨_, m₂, hfirst, h⟩ := bind_eq_ok h
  rw [bind_of_ok (modify_run _)] at h
  obtain ⟨_, m₃, hloop, h⟩ := bind_eq_ok h
  cases h
  have hm₂ := banking_eq (banking_lift (register i.p1)).discard hfirst
  have hreach : m₂.bank.reach = m.bank.reach := by
    have habide := (abiding_register i.p1).lift.discard (F := abiding fun _ => True)
      { m with stamp := (m.stamp + 2) ||| 1, result := i.p1 }
    rw [after_of_ok hfirst] at habide
    exact habide.bank.reach
  rw [forIn_handOut] at hloop
  have hm₃ := banking_eq (banking_handOuts i _) hloop
  refine ⟨rfl, hwidth, fun k hk => ?_, ?_⟩
  · rw [← hreach]
    exact registers_of_handOut hloop k (List.mem_range.mpr (by omega))
  · rw [hm₃, hm₂]
    rfl

theorem direct_resultRow_eq_ok {flow : Flow} (h : Direct.resultRow pc i m = .ok flow m₁) :
    flow = .leave codeRow ∧ m₁ = m.suspended pc m.result m₁.bank := by
  rw [Direct.resultRow, Step.renewStamp, bind_of_ok (modify_run _), bind_of_ok (modify_run _)] at h
  obtain ⟨_, m₂, hloop, h⟩ := bind_eq_ok h
  cases h
  have hm₂ := banking_eq (banking_directHandOuts i) hloop
  exact ⟨rfl, by rw [hm₂]; rfl⟩

/-- There is no row, and no register is the first of one. -/
structure Bare (m : Machine) : Prop where
  hasRow : m.hasRow = false
  result : m.result = -1

/-- The machine has stopped behind an instruction that has handed out a row. -/
structure HandsOut (m : Machine) (i : Instruction) : Prop where
  stopped : fetch (m.pc - 1) m = .ok i m
  op : i.op = .resultRow
  hasRow : m.hasRow = true
  result : m.result = if m.status.tracked .resultRow then i.p1 else -1
  width : m.status.tracked .resultRow → (m.width : Int) = i.p2
  registers : m.status.tracked .resultRow → ∀ k < m.width, (wrapIndex? m.bank.reach (i.p1 + k)).isSome

/-- A run has given up with no row, or while an instruction was handing one out. -/
def Stuck (m : Machine) : Prop :=
  m.Bare ∨ ∃ entry i, m.trace.head? = some entry ∧ fetch entry.address m = .ok i m ∧ i.op = .resultRow ∧
    (m.result = -1 ∨ m.result = i.p1)

theorem handsOut_of_step {flow : Flow} (h : m.Bare) (hi : fetch pc m = .ok i m) (hop : i.op = .resultRow)
    (hs : step pc i m = .ok flow m₁) : flow = .leave codeRow ∧ m₁.HandsOut i := by
  have hstopped {b : Bank} {first : Int} : fetch ((m.suspended pc first b).pc - 1) (m.suspended pc first b) =
      .ok i (m.suspended pc first b) := by
    rw [show (m.suspended pc first b).pc - 1 = pc from Int.add_sub_cancel pc 1]
    exact fetch_congr (m := m) rfl hi
  have hreach : m₁.bank.reach = m.bank.reach := by
    have habide := (abiding_step fun _ h => h.elim : (abiding fun _ => False).Keeps (step pc i)) m
    rw [after_of_ok hs] at habide
    exact habide.bank.reach
  simp only [step, hop, choose, bind_of_ok get_run] at hs
  split at hs
  · rename_i ht
    obtain ⟨rfl, hwidth, hregisters, hm₁⟩ := tracked_resultRow_eq_ok hs
    rw [← hreach] at hregisters
    rw [hm₁] at hregisters ⊢
    exact ⟨rfl, hstopped, hop, rfl, (if_pos ht).symm, fun _ => hwidth, fun _ => hregisters⟩
  · rename_i ht
    obtain ⟨rfl, hm₁⟩ := direct_resultRow_eq_ok hs
    rw [hm₁]
    exact ⟨rfl, hstopped, hop, rfl, h.result.trans (if_neg ht).symm, fun h => absurd h ht, fun h => absurd h ht⟩

/-- The frame of an instruction that hands out a row, from a first register on. -/
def delivering (first : Int) : Frame Machine where
  rel m m' := m'.program = m.program ∧ (m'.result = m.result ∨ m'.result = first)
  refl _ := ⟨rfl, .inl rfl⟩
  trans h h' := ⟨h'.1.trans h.1, h'.2.elim (fun h₁ => h₁ ▸ h.2) .inr⟩

theorem delivering_of_banking {x : MachineM α} (hx : banking.Keeps x) (first : Int) :
    (delivering first).Keeps x := by
  intro m
  rw [hx m]
  exact (delivering first).refl m

theorem delivering_step (hop : i.op = .resultRow) : (delivering i.p1).Keeps (step pc i) := by
  have hsame (f : Machine → Machine) (hf : ∀ m, (f m).program = m.program ∧ (f m).result = m.result) :
      (delivering i.p1).Keeps (modify f : MachineM PUnit) :=
    .modify fun m => ⟨(hf m).1, .inl (hf m).2⟩
  simp only [step, hop]
  refine Frame.Keeps.get.bind fun m => .ite ?_ ?_
  · refine Frame.Keeps.get.bind fun _ => (Frame.Keeps.check _).bind fun _ => ?_
    refine .bind (hsame _ fun _ => ⟨rfl, rfl⟩) fun _ => .bind (.modify fun _ => ⟨rfl, .inr rfl⟩) fun _ => ?_
    refine (delivering_of_banking (banking_lift _).discard _).bind fun _ => ?_
    refine .bind (hsame _ fun _ => ⟨rfl, rfl⟩) fun _ => .bind ?_ fun _ => ?_
    · rw [forIn_handOut]
      exact delivering_of_banking (banking_handOuts i _) _
    · exact .bind (hsame _ fun _ => ⟨rfl, rfl⟩) fun _ => .pure _
  · refine .bind (hsame _ fun _ => ⟨rfl, rfl⟩) fun _ => .bind (hsame _ fun _ => ⟨rfl, rfl⟩) fun _ => ?_
    refine (delivering_of_banking (banking_directHandOuts i) _).bind fun _ => ?_
    exact .bind (hsame _ fun _ => ⟨rfl, rfl⟩) fun _ => .pure _

/-! Turns. -/

/-- How a run stands as to the row: only one that ends with the code for a row hands one out. -/
def Course.Stands : Course → Machine → Prop
  | .going _ _, m => m.Bare
  | .ended code, m => if code = codeRow then ∃ i, m.HandsOut i else m.Bare

theorem Bare.withBank (h : m.Bare) (b : Bank) : (m.withBank b).Bare := ⟨h.hasRow, h.result⟩

theorem HandsOut.withBank (h : m.HandsOut i) {b : Bank} (hb : b.reach = m.bank.reach) : (m.withBank b).HandsOut i :=
  ⟨fetch_congr (m := m) rfl h.stopped, h.op, h.hasRow, h.result, h.width, by
    show _ → ∀ k < m.width, (wrapIndex? b.reach (i.p1 + k)).isSome
    rw [hb]
    exact h.registers⟩

theorem Bare.entered (h : m.Bare) (pc : Int) (i : Instruction) (sheet : Option Sheet) :
    (m.entered pc i sheet).Bare := by
  have hentered : (m.entered pc i sheet).hasRow = (m.revealed sheet).settleTrace.hasRow ∧
      (m.entered pc i sheet).result = (m.revealed sheet).settleTrace.result := ⟨rfl, rfl⟩
  rw [settleTrace_eq] at hentered
  exact ⟨hentered.1.trans h.hasRow, hentered.2.trans h.result⟩

theorem banking_settle (pc : Int) (i : Instruction) (flow : Flow) : banking.Keeps (settle pc i flow) := by
  cases flow with
  | leave code => exact .pure _
  | next => exact (banking_lift _).bind fun _ => (banking_lift _).bind fun _ => .pure _
  | jump target =>
    exact (banking_lift _).bind fun _ => (banking_lift _).bind fun _ =>
      .ite ((banking_lift _).bind fun _ => .pure _) (.pure _)
  | fail code => exact (banking_lift _).bind fun _ => .pure _

theorem stands_settle {flow : Flow} (h : m.Bare) (hflow : flow.Rowless) (hs : settle pc i flow m = .ok c m₁) :
    c.Stands m₁ := by
  have hbare : m₁.Bare := by
    rw [banking_eq (banking_settle pc i flow) hs]
    exact h.withBank _
  cases flow with
  | leave code =>
    cases hs
    rw [Course.Stands, if_neg hflow]
    exact hbare
  | next =>
    obtain ⟨_, _, -, hs⟩ := bind_eq_ok hs
    obtain ⟨_, _, -, hs⟩ := bind_eq_ok hs
    cases hs
    exact hbare
  | jump target =>
    obtain ⟨_, m₂, hconclude, -⟩ := bind_eq_ok hs
    rw [settle_jump_of hconclude] at hs
    cases hs
    exact hbare
  | fail code =>
    obtain ⟨_, _, -, hs⟩ := bind_eq_ok hs
    cases hs
    rw [Course.Stands, if_neg hflow]
    exact hbare

/-- An instruction hands out a row and ends the run with the code for it, or it does neither. -/
theorem execute_stands {flow : Flow} (h : m.Bare) (hi : fetch pc m = .ok i m) (hx : execute pc i m = .ok flow m₁) :
    (flow = .leave codeRow ∧ m₁.HandsOut i) ∨ (flow.Rowless ∧ m₁.Bare) := by
  obtain ⟨_, m₂, hprepare, hstep⟩ := bind_eq_ok hx
  have hm₂ := banking_eq (banking_lift (prepare i)) hprepare
  have hbare : m₂.Bare := by
    rw [hm₂]
    exact h.withBank _
  by_cases hop : i.op = .resultRow
  · have hfetch : fetch pc m₂ = .ok i m₂ := by
      rw [hm₂]
      exact fetch_congr (m := m) rfl hi
    exact .inl (handsOut_of_step hbare hfetch hop hstep)
  · have habide := abiding_step_of pc (Opcode.leaves_row hop) m₂
    rw [after_of_ok hstep] at habide
    exact .inr ⟨rowless_step hop m₂ flow m₁ hstep,
      (habide.row rfl).2.trans hbare.hasRow, (habide.row rfl).1.trans hbare.result⟩

theorem turn_stands (h : m.Bare) (ht : turn pc sheet m = .ok c m₁) : c.Stands m₁ := by
  obtain ⟨i, flow, m₂, hi, -, -, hx, hs⟩ := turn_eq_ok ht
  obtain ⟨rfl, hout⟩ | ⟨hflow, hbare⟩ := execute_stands (h.entered pc i sheet) (fetch_entered hi) hx
  · cases hs
    exact ⟨i, hout⟩
  · exact stands_settle hbare hflow hs

theorem step_stuck {e : Fault} {entry : TraceEntry} (h : m.Bare) (hi : fetch pc m = .ok i m)
    (hentry : m.trace.head? = some entry) (haddress : entry.address = pc) (hs : step pc i m = .error e m₁) :
    m₁.Stuck := by
  by_cases hop : i.op = .resultRow
  · have habide := (abiding_step fun _ h => h.elim : (abiding fun _ => False).Keeps (step pc i)) m
    obtain ⟨hprogram, hresult⟩ := (delivering_step hop : (delivering i.p1).Keeps (step pc i)) m
    rw [after_of_error hs] at habide hprogram hresult
    refine .inr ⟨entry, i, habide.trace ▸ hentry, ?_, hop, hresult.imp (·.trans h.result) id⟩
    rw [haddress]
    exact fetch_congr hprogram hi
  · have habide := abiding_step_of pc (Opcode.leaves_row hop) m
    rw [after_of_error hs] at habide
    exact .inl ⟨(habide.row rfl).2.trans h.hasRow, (habide.row rfl).1.trans h.result⟩

theorem turn_stuck {e : Fault} (h : m.Bare) (ht : turn pc sheet m = .error e m₁) : m₁.Stuck := by
  obtain rfl | ⟨i, hi, hx⟩ := turn_eq_error ht
  · exact .inl (h.withBank _)
  · have hbare := h.entered pc i sheet
    obtain hx | ⟨flow, m₂, hx, hs⟩ := hx
    · obtain hprepare | ⟨_, m₃, hprepare, hstep⟩ := bind_eq_error hx
      · have hm₁ := banking_lift (prepare i) (m.entered pc i sheet)
        rw [after_of_error hprepare] at hm₁
        rw [hm₁]
        exact .inl (hbare.withBank _)
      · have hm₃ := banking_eq (banking_lift (prepare i)) hprepare
        have hentry : m₃.trace.head? = some ⟨pc, i.op, []⟩ := by rw [hm₃]; rfl
        refine step_stuck ?_ ?_ hentry rfl hstep <;> rw [hm₃]
        · exact hbare.withBank _
        · exact fetch_congr (m := m.entered pc i sheet) rfl (fetch_entered hi)
    · obtain ⟨rfl, -⟩ | ⟨-, hbare⟩ := execute_stands hbare (fetch_entered hi) hx
      · cases hs
      · have hm₁ := banking_settle pc i flow m₂
        rw [after_of_error hs] at hm₁
        rw [hm₁]
        exact .inl (hbare.withBank _)

theorem loop_stands {n : Nat} (h : c.Stands m) :
    (∀ code m₁, loop n c m = .ok code m₁ → (Course.ended code).Stands m₁) ∧ ∀ e m₁, loop n c m = .error e m₁ → m₁.Stuck := by
  have hrun := loop_induction (P := fun _ => Course.Stands) turn_stands turn_stuck (fun hm => .inl hm) (n := n) h
  exact ⟨fun code m₁ hl => (hrun.1 code m₁ hl).elim fun _ => id, hrun.2⟩

/-! Runs. -/

section Runs

variable {code : Nat} {e : Fault}

theorem bare_started (m : Machine) : m.started.Bare := ⟨rfl, rfl⟩

theorem run_stands (h : m.bank.holder.Outside) (hrun : run m = .ok code m₁) : (Course.ended code).Stands m₁ := by
  obtain ⟨_, m₂, hloop, -, hend⟩ | ⟨_, _, -, -, hend⟩ := run_cases h
  swap
  · cases hend.symm.trans hrun
  cases hend.symm.trans hrun
  have hstands := (loop_stands (show m.outset.Stands m.started from bare_started m)).1 _ _ hloop
  rw [Course.Stands] at hstands ⊢
  split at hstands
  · rename_i hcode
    obtain ⟨i, hout⟩ := hstands
    rw [if_pos hcode]
    exact ⟨i, hout.withBank rfl⟩
  · rename_i hcode
    rw [if_neg hcode]
    exact hstands.withBank _

theorem run_stuck (h : m.bank.holder.Outside) (hrun : run m = .error e m₁) : m₁.Stuck :=
  (loop_stands (show m.outset.Stands m.started from bare_started m)).2 _ _ (run_error h hrun).1

end Runs

/-- The first register of the row that the instruction before the address hands out: without the tracked
rule the machine is not told and takes the one before the first. -/
def handed (m : Machine) : Int :=
  match fetch (m.pc - 1) m with
  | .ok i _ => if m.status.tracked .resultRow then i.p1 else -1
  | .error _ _ => -1

theorem HandsOut.result_eq (h : m.HandsOut i) : m.result = m.handed := by
  rw [handed, h.stopped]
  exact h.result

theorem banking_bindText (j : Int) (bytes : Bytes) : banking.Keeps (bindText j bytes) := by
  refine (banking_lift _).bind fun _ => Frame.Keeps.get.bind fun m => .ite (.pure _) (.ite (.pure _) ?_)
  exact (banking_lift _).bind fun _ => .pure _

end QueryMachine.Machine

namespace QueryMachine

/-- What the requests so far have come to: whether there is a row, and which register is the first of it. -/
structure Standing where
  current : Bool := false
  first : Int := -1
  deriving Repr, DecidableEq, Inhabited

namespace Request

open Machine Bank

/-- A run says anew whether there is a row and where it is; a reset takes the row back, but not where it
was. A run that gives up leaves what it has written so far. -/
def stand (q : Request) (m : Machine) (st : Standing) : Standing :=
  match q with
  | call .run =>
    match run m with
    | .ok code m' => if code = codeRow then ⟨true, m'.handed⟩ else {}
    | .error _ m' => ⟨m'.hasRow, m'.result⟩
  | call .reset =>
    match reset m with
    | .ok _ _ => { st with current := false }
    | .error _ _ => st
  | _ => st

/-- What a sequence of requests comes to. -/
def standing : List Request → Machine → Standing → Standing
  | [], _, st => st
  | q :: qs, m, st => standing qs (after q.perform m) (q.stand m st)

/-- The machine stands as the requests say. -/
structure Agrees (m : Machine) (st : Standing) : Prop where
  hasRow : m.hasRow = st.current
  result : m.result = st.first

variable {q : Request} {m : Machine} {st : Standing}

theorem Agrees.of_abiding (h : Agrees m st) {x : MachineM Unit} (hx : (abiding fun _ => True).Keeps x) :
    Agrees (after x m) st :=
  ⟨((hx m).row trivial).2.trans h.hasRow, ((hx m).row trivial).1.trans h.result⟩

theorem agrees_run (hside : m.bank.holder.Outside ∨ m.bank.holder.Inside) (st : Standing) :
    Agrees (after Machine.run m) ((call .run).stand m st) := by
  cases hrun : Machine.run m with
  | ok code m₁ =>
    rw [after_of_ok hrun]
    simp only [stand, hrun]
    have hout : m.bank.holder.Outside := by
      refine hside.resolve_right fun hi => ?_
      rw [(refused hi).1] at hrun
      cases hrun
    have hstands := run_stands hout hrun
    rw [Course.Stands] at hstands
    split at hstands
    · rename_i hcode
      obtain ⟨i, hi⟩ := hstands
      rw [if_pos hcode]
      exact ⟨hi.hasRow, hi.result_eq⟩
    · rename_i hcode
      rw [if_neg hcode]
      exact ⟨hstands.hasRow, hstands.result⟩
  | error e m₁ =>
    rw [after_of_error hrun]
    simp only [stand, hrun]
    exact ⟨rfl, rfl⟩

theorem Agrees.reset (h : Agrees m st) (hside : m.bank.holder.Outside ∨ m.bank.holder.Inside) :
    Agrees (after Machine.reset m) ((call .reset).stand m st) := by
  obtain hout | hin := hside
  · have hreset := reset_run hout.1
    rw [after_of_ok hreset]
    simp only [stand, hreset]
    exact ⟨rfl, h.result⟩
  · obtain ⟨-, hreset, -⟩ := refused hin
    rw [after_of_error hreset]
    simp only [stand, hreset]
    exact h

theorem Agrees.perform (h : Agrees m st) (hside : m.bank.holder.Outside ∨ m.bank.holder.Inside)
    (q : Request) : Agrees (after q.perform m) (q.stand m st) := by
  by_cases hq : q.needsOutside = true
  · rcases q with (_ | _ | _ | _ | _ | _ | ⟨j, bytes⟩) | _ <;> try cases hq
    · rw [after_run]
      exact agrees_run hside st
    · rw [after_reset]
      exact h.reset hside
    · rw [after_bindText, banking_bindText j bytes m]
      exact ⟨h.hasRow, h.result⟩
  · have hst : q.stand m st = st := by
      rcases q with (_ | _) | _ <;> first | rfl | exact absurd rfl hq
    rw [hst]
    exact h.of_abiding (abiding_perform (Bool.eq_false_iff.mpr hq))

theorem Agrees.performAll (h : Agrees m st) (hside : m.bank.holder.Outside ∨ m.bank.holder.Inside)
    (qs : List Request) : Agrees (performAll qs m) (standing qs m st) := by
  induction qs generalizing m st with
  | nil => exact h
  | cons q qs ih => exact ih (h.perform hside q) (sided_perform hside q)

end Request

end QueryMachine
