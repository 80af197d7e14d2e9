import Mathlib
import QueryMachine.Proofs.Abiding
import QueryMachine.Proofs.Calls

/-!
On which side the knowledge about the registers is held. A run takes it inside and hands it out again when
it ends with a code. A run that gives up leaves it inside, and from then on there is neither another run
nor a way to set the machine back.
-/

namespace QueryMachine

namespace Holder

/-- No run is going on, and there is a sheet. -/
def Outside (h : Holder) : Prop := h.inside = none ∧ h.outside.isSome

/-- A run is going on, with a sheet. -/
def Inside (h : Holder) : Prop := h.outside = none ∧ h.inside.join.isSome

instance (h : Holder) : Decidable h.Outside := inferInstanceAs (Decidable (_ ∧ _))

instance (h : Holder) : Decidable h.Inside := inferInstanceAs (Decidable (_ ∧ _))

variable {h h' : Holder}

theorem Inside.not_outside (hi : h.Inside) : ¬ h.Outside := by
  rintro ⟨hnone, -⟩
  have hsome := hi.2
  rw [hnone] at hsome
  cases hsome

theorem Abides.outside_of (ha : h.Abides h') (ho : h.Outside) : h'.Outside := by
  have hinside : h'.inside = none := Option.not_isSome_iff_eq_none.mp (by rw [ha.inside, ho.1]; simp)
  have hcurrent : h'.current?.isSome := ha.current (by rw [current?, ho.1]; exact ho.2)
  rw [current?, hinside] at hcurrent
  exact ⟨hinside, hcurrent⟩

theorem Abides.inside_of (ha : h.Abides h') (hi : h.Inside) : h'.Inside := by
  obtain ⟨houtside, hsome⟩ := hi
  obtain ⟨s, hs⟩ : ∃ s, h.inside = some (some s) := by
    rcases hin : h.inside with _ | _ | s <;> rw [hin] at hsome
    · cases hsome
    · cases hsome
    · exact ⟨s, rfl⟩
  have hrun : h.inside.isSome := by rw [hs]; rfl
  have hcurrent : h'.current?.isSome := ha.current (by rw [current?, hs]; rfl)
  obtain ⟨t, ht⟩ := Option.isSome_iff_exists.mp (ha.inside.trans hrun)
  rw [current?, ht] at hcurrent
  exact ⟨(ha.outside hrun).trans houtside, by rw [ht]; exact hcurrent⟩

end Holder

namespace Machine

open Bank

variable {m m' m₁ : Machine} {pc : Int} {sheet : Option Sheet} {i : Instruction} {c : Course}

theorem abiding_checkRegisters : Bank.abiding.Keeps checkRegisters :=
  Frame.Keeps.get.bind fun _ => .bind (.forIn fun r _ => (abiding_checkFacts r).bind fun _ => .pure _) fun _ => .pure _

theorem abiding_prepare (i : Instruction) : Bank.abiding.Keeps (prepare i) := by
  have hcheck := abiding_checkRegisters
  grind [prepare]

theorem abiding_conclude (i : Instruction) : Bank.abiding.Keeps (conclude i) := by
  have hcheck := abiding_checkRegisters
  grind [conclude]

theorem abiding_execute (pc : Int) (i : Instruction) : (abiding fun _ => False).Keeps (execute pc i) :=
  (abiding_prepare i).lift.bind fun _ => abiding_step fun _ h => h.elim

/-- Where the knowledge is between two instructions: at the end of a run inside, and else nowhere outside
but on the sheet that the run goes on with. -/
def Course.Held : Course → Machine → Prop
  | .ended _, m => m.bank.holder.Inside
  | .going _ sheet, m => m.bank.holder.outside = none ∧ sheet.isSome

theorem inside_revealed (h : (Course.going pc sheet).Held m) : (m.revealed sheet).bank.holder.Inside := h

theorem inside_entered (h : (Course.going pc sheet).Held m) : (m.entered pc i sheet).bank.holder.Inside := by
  rw [bank_entered]
  exact inside_revealed h

theorem Inside.current {h : Holder} (hi : h.Inside) : h.current?.isSome := by
  obtain ⟨-, hsome⟩ := hi
  rcases hin : h.inside with _ | t <;> rw [hin] at hsome
  · cases hsome
  · rw [Holder.current?, hin]
    exact hsome

theorem inside_of_concluded (h : m.bank.holder.Inside) (hc : (liftM (conclude i) : MachineM Unit) m = .ok () m₁) :
    m₁.bank.holder.Inside ∧ m₁.budget = m.budget := by
  have habide := ((abiding_conclude i).lift : (abiding fun _ => True).Keeps _) m
  rw [after_of_ok hc] at habide
  exact ⟨habide.bank.holder.inside_of h, habide.budget⟩

theorem settle_held {flow : Flow} (h : m.bank.holder.Inside) (hs : settle pc i flow m = .ok c m₁) :
    c.Held m₁ ∧ m₁.budget = m.budget := by
  rcases settle_eq_ok hs with ⟨code, rfl, rfl, rfl⟩ | ⟨m₂, hconclude, -⟩
  · exact ⟨h, rfl⟩
  · obtain ⟨h₂, hbudget⟩ := inside_of_concluded h hconclude
    cases flow with
    | leave code =>
      cases hs
      exact ⟨h, rfl⟩
    | next =>
      rw [settle_next_of hconclude] at hs
      cases hs
      exact ⟨⟨h₂.1, Inside.current h₂⟩, hbudget⟩
    | jump target =>
      rw [settle_jump_of hconclude] at hs
      cases hs
      split
      · exact ⟨⟨h₂.1, Inside.current h₂⟩, hbudget⟩
      · exact ⟨⟨h₂.1, Inside.current h₂⟩, hbudget⟩
    | fail code =>
      rw [settle_fail_of hconclude] at hs
      cases hs
      exact ⟨h₂, hbudget⟩

theorem settle_eq_error {flow : Flow} {e : Fault} (hs : settle pc i flow m = .error e m₁) :
    (liftM (conclude i) : MachineM Unit) m = .error e m₁ := by
  cases hc : (liftM (conclude i) : MachineM Unit) m with
  | error e' m₂ =>
    cases flow with
    | leave code => cases hs
    | next | jump _ | fail _ =>
      rw [settle, bind_of_error hc] at hs
      cases hs
      rfl
  | ok u m₂ =>
    cases flow with
    | leave code => cases hs
    | next => rw [settle_next_of hc] at hs; cases hs
    | jump target => rw [settle_jump_of hc] at hs; cases hs
    | fail code => rw [settle_fail_of hc] at hs; cases hs

theorem settle_error {flow : Flow} {e : Fault} (h : m.bank.holder.Inside) (hs : settle pc i flow m = .error e m₁) :
    m₁.bank.holder.Inside := by
  have habide := ((abiding_conclude i).lift : (abiding fun _ => True).Keeps _) m
  rw [after_of_error (settle_eq_error hs)] at habide
  exact habide.bank.holder.inside_of h

theorem turn_held (h : (Course.going pc sheet).Held m) (ht : turn pc sheet m = .ok c m₁) :
    c.Held m₁ ∧ m₁.budget + 1 = m.budget := by
  obtain ⟨i, flow, m₂, -, hb, -, hx, hs⟩ := turn_eq_ok ht
  have habide := abiding_execute pc i (m.entered pc i sheet)
  rw [after_of_ok hx] at habide
  obtain ⟨hheld, hbudget⟩ := settle_held (habide.bank.holder.inside_of (inside_entered h)) hs
  have hentered : (m.entered pc i sheet).budget = m.budget - 1 := rfl
  have hsame := habide.budget
  exact ⟨hheld, by omega⟩

theorem turn_error {e : Fault} (h : (Course.going pc sheet).Held m) (ht : turn pc sheet m = .error e m₁) :
    m₁.bank.holder.Inside := by
  obtain rfl | ⟨i, -, hx⟩ := turn_eq_error ht
  · exact inside_revealed h
  · have habide := abiding_execute pc i (m.entered pc i sheet)
    obtain hx | ⟨flow, m₂, hx, hs⟩ := hx
    · rw [after_of_error hx] at habide
      exact habide.bank.holder.inside_of (inside_entered h)
    · rw [after_of_ok hx] at habide
      exact settle_error (habide.bank.holder.inside_of (inside_entered h)) hs

/-- However a run ends that is given enough turns, the knowledge is inside. -/
theorem loop_inside {fuel : Nat} (h : c.Held m) (hfuel : m.budget < fuel) :
    (after (loop fuel c) m).bank.holder.Inside := by
  refine after_loop (P := fun n c m => c.Held m ∧ m.budget < n) (fun hm ht => ?_) (fun hm ht => turn_error hm.1 ht)
    (fun hm => absurd hm.2 (Nat.not_lt_zero _)) (fun hm => hm.1) ⟨h, hfuel⟩
  obtain ⟨h₁, hbudget⟩ := turn_held hm.1 ht
  exact ⟨h₁, by omega⟩

section Runs

variable {code : Nat} {e : Fault}

theorem held_outset (h : m.bank.holder.Outside) : m.outset.Held m.started := by
  refine ⟨rfl, ?_⟩
  rw [Holder.current?, h.1]
  exact h.2

theorem inside_looped (h : m.bank.holder.Outside) :
    (after (loop (m.budget + 1) m.outset) m.started).bank.holder.Inside :=
  loop_inside (held_outset h) (Nat.lt_succ_self _)

theorem run_cases (h : m.bank.holder.Outside) :
    (∃ code m₁, loop (m.budget + 1) m.outset m.started = .ok code m₁ ∧ m₁.bank.holder.Inside ∧
      run m = .ok code m₁.returned) ∨
    ∃ e m₁, loop (m.budget + 1) m.outset m.started = .error e m₁ ∧ m₁.bank.holder.Inside ∧ run m = .error e m₁ := by
  have hinside := inside_looped h
  rw [run_eq h.1]
  cases hloop : loop (m.budget + 1) m.outset m.started with
  | ok code m₁ =>
    rw [after_of_ok hloop] at hinside
    rw [bind_of_ok hloop, bind_of_ok (prepareReturn_run hinside.1)]
    exact .inl ⟨code, m₁, rfl, hinside, rfl⟩
  | error e m₁ =>
    rw [after_of_error hloop] at hinside
    rw [bind_of_error hloop]
    exact .inr ⟨e, m₁, rfl, hinside, rfl⟩

theorem outside_of_run (h : m.bank.holder.Outside) (hrun : run m = .ok code m₁) : m₁.bank.holder.Outside := by
  obtain ⟨_, m₂, -, hinside, hend⟩ | ⟨_, _, -, -, hend⟩ := run_cases h
  · cases hend.symm.trans hrun
    exact ⟨rfl, Inside.current hinside⟩
  · cases hend.symm.trans hrun

theorem run_error (h : m.bank.holder.Outside) (hrun : run m = .error e m₁) :
    loop (m.budget + 1) m.outset m.started = .error e m₁ ∧ m₁.bank.holder.Inside := by
  obtain ⟨_, _, -, -, hend⟩ | ⟨_, m₂, hloop, hinside, hend⟩ := run_cases h
  · cases hend.symm.trans hrun
  · cases hend.symm.trans hrun
    exact ⟨hloop, hinside⟩

/-- A machine whose knowledge is inside refuses every call that needs it outside. -/
theorem refused (h : m.bank.holder.Inside) :
    run m = .error (.assertion "") m ∧ reset m = .error (.assertion "") m ∧
      ∀ j bytes, bindText j bytes m = .error (.assertion "") m := by
  have hinside : m.bank.holder.inside.isNone = false := by
    rcases hin : m.bank.holder.inside with _ | t
    · have hsome := h.2
      rw [hin] at hsome
      cases hsome
    · rfl
  have hreenter : Bank.reenter m.bank = .error (.assertion "") m.bank := by
    simp only [Bank.reenter, bind_of_ok get_run, hinside]
    rfl
  have hforget : Bank.forgetAllOutside m.bank = .error (.assertion "") m.bank := by
    simp only [Bank.forgetAllOutside, bind_of_ok get_run, hinside]
    rfl
  have hstart : start m = .error (.assertion "") m := by
    have hcurrent : (liftM Bank.current? : MachineM (Option Sheet)) m = .ok m.bank.holder.current? m := rfl
    simp only [start, bind_of_ok get_run, bind_of_ok hcurrent, bind_of_error (lift_of_error hreenter)]
    rfl
  exact ⟨bind_of_error hstart, bind_of_error (lift_of_error hforget),
    fun _ _ => bind_of_error (lift_of_error hforget)⟩

/-- The machine with nothing known outside of a run. -/
def forgotten (m : Machine) : Machine :=
  m.withBank { m.bank with holder := { m.bank.holder with outside := some m.bank.holder.blank } }

theorem forgetAllOutside_run (h : m.bank.holder.inside = none) :
    (liftM Bank.forgetAllOutside : MachineM Unit) m = .ok () m.forgotten := by
  have hnone : m.bank.holder.inside.isNone = true := by rw [h]; rfl
  refine lift_of_ok ?_
  simp only [Bank.forgetAllOutside, bind_of_ok get_run, hnone]
  rfl

theorem outside_reset (h : m.bank.holder.Outside) : ∃ m₁, reset m = .ok () m₁ ∧ m₁.bank.holder.Outside := by
  rw [reset, bind_of_ok (forgetAllOutside_run h.1)]
  exact ⟨_, rfl, h.1, rfl⟩

theorem outside_bindText (h : m.bank.holder.Outside) (j : Int) (bytes : Bytes) :
    ∃ code m₁, bindText j bytes m = .ok code m₁ ∧ m₁.bank.holder.Outside := by
  have hforgotten : m.forgotten.bank.holder.Outside := ⟨h.1, rfl⟩
  simp only [bindText, bind_of_ok (forgetAllOutside_run h.1), bind_of_ok get_run]
  split_ifs
  · exact ⟨_, _, rfl, hforgotten⟩
  · exact ⟨_, _, rfl, hforgotten⟩
  · refine ⟨0, _, bind_of_ok (lift_of_ok (modifyCellWith_run _ _ _)), ?_⟩
    have habide := abiding_modifyCellWith (m.forgotten.bank.reach + (j - 1).toNat)
      (fun name c => { c.release with flags := .onlyNull }.setBytes name .onlyStr bytes) m.forgotten.bank
    rw [after_of_ok (modifyCellWith_run _ _ _)] at habide
    exact habide.holder.outside_of hforgotten

end Runs

end Machine

/-- What a statement can be asked to do, and what it can be asked for. -/
inductive Request
  | call (c : Call)
  | columnKind (i : Int)
  | columnInt (i : Int)
  | columnReal (i : Int)
  | columnBytes (i : Int)
  | columnText (i : Int)
  deriving Repr, DecidableEq, Inhabited

namespace Request

open Machine Bank

def perform : Request → MachineM Unit
  | call c => discard c.perform
  | columnKind i => discard (Machine.columnKind i)
  | columnInt i => discard (Machine.columnInt i)
  | columnReal i => discard (Machine.columnReal i)
  | columnBytes i => discard (Machine.columnBytes i)
  | columnText i => discard (Machine.columnText i)

/-- The machine after some requests; one that fails is followed by the next one all the same. -/
def performAll (qs : List Request) (m : Machine) : Machine := qs.foldl (fun m q => after q.perform m) m

/-- Whether the request is for a run, and the run fails. -/
def isFailedRun (q : Request) (m : Machine) : Bool :=
  match q, run m with
  | call .run, .error _ _ => true
  | _, _ => false

/-- Whether one of the requests is for a run that fails. -/
def someRunFails : List Request → Machine → Bool
  | [], _ => false
  | q :: qs, m => q.isFailedRun m || someRunFails qs (after q.perform m)

/-- The requests that need the knowledge outside. -/
def needsOutside : Request → Bool
  | call .run | call .reset | call (.bindText _ _) => true
  | _ => false

theorem after_answer {α β : Type} (x : MachineM α) (g : α → β) (m : Machine) :
    after (x >>= fun a => pure (g a)) m = after x m := by
  cases h : x m with
  | ok a m₁ => rw [after_of_ok h, after, bind_of_ok h]; rfl
  | error e m₁ => rw [after_of_error h, after_of_error (bind_of_error h)]

theorem after_run (m : Machine) : after (call .run).perform m = after run m :=
  (after_answer (Call.run.perform) _ m).trans (after_answer run _ m)

theorem after_reset (m : Machine) : after (call .reset).perform m = after reset m :=
  (after_answer (Call.reset.perform) _ m).trans (after_answer reset _ m)

theorem after_bindText (j : Int) (bytes : Bytes) (m : Machine) :
    after (call (.bindText j bytes)).perform m = after (bindText j bytes) m :=
  (after_answer ((Call.bindText j bytes).perform) _ m).trans (after_answer (bindText j bytes) _ m)

theorem abiding_perform {P : Facet → Prop} {q : Request} (hq : q.needsOutside = false) : (abiding P).Keeps q.perform := by
  cases q with
  | call c =>
    refine .discard ?_
    cases c with
    | run | reset | bindText i bytes => cases hq
    | row => exact abiding_row.bind fun _ => .pure _
    | bindNull i => exact (abiding_unbind i).bind fun _ => .pure _
    | bindInt i n => exact (abiding_bindInt i n).bind fun _ => .pure _
    | bindReal i x => exact (abiding_bindReal i x).bind fun _ => .pure _
  | columnKind i => exact .discard ((abiding_column i).bind fun r => (abiding_valueKind r).lift)
  | columnInt i => exact .discard ((abiding_column i).bind fun r => (abiding_intValue r).lift)
  | columnReal i =>
    exact .discard ((abiding_column i).bind fun r => (abiding_realValue r).lift.bind fun _ => .pure _)
  | columnBytes i => exact .discard ((abiding_column i).bind fun r => (abiding_valueBytes r).lift)
  | columnText i =>
    exact .discard ((abiding_column i).bind fun r => (abiding_valueText r).lift.bind fun _ => .pure _)

theorem persists_performAll {I : Machine → Prop} (hI : Persists I) {m : Machine} (h : I m) (qs : List Request) :
    I (performAll qs m) := by
  have hone {m : Machine} (q : Request) (hm : I m) : I (after q.perform m) := by
    cases q with
    | call c => exact (after_answer c.perform (fun _ => ()) m).symm ▸ hI.call hm c
    | columnKind i | columnInt i | columnReal i | columnBytes i | columnText i =>
      exact hI.aside (resting_of_abiding (abiding_perform rfl)) hm
  induction qs generalizing m with
  | nil => exact h
  | cons q qs ih => exact ih (hone q h)

variable {q : Request} {m : Machine}

/-- A frame that every request keeps to, as what is refused changes nothing. -/
structure Spans (F : Frame Machine) : Prop where
  aside {m m' : Machine} : Abides (fun _ => True) m m' → F.rel m m'
  run {m : Machine} : m.bank.holder.Outside → F.rel m (after run m)
  reset {m : Machine} : m.bank.holder.Outside → F.rel m (after reset m)
  bindText {m : Machine} (j : Int) (bytes : Bytes) : m.bank.holder.Outside → F.rel m (after (bindText j bytes) m)

theorem Spans.perform {F : Frame Machine} (hF : Spans F) (h : m.bank.holder.Outside ∨ m.bank.holder.Inside) (q : Request) :
    F.rel m (after q.perform m) := by
  by_cases hq : q.needsOutside = true
  · obtain hout | hin := h
    · rcases q with (_ | _ | _ | _ | _ | _ | ⟨j, bytes⟩) | _ <;> try cases hq
      · exact after_run m ▸ hF.run hout
      · exact after_reset m ▸ hF.reset hout
      · exact after_bindText j bytes m ▸ hF.bindText j bytes hout
    · obtain ⟨hrun, hreset, hbind⟩ := refused hin
      rcases q with (_ | _ | _ | _ | _ | _ | ⟨j, bytes⟩) | _ <;> try cases hq
      · rw [after_run, after_of_error hrun]
        exact F.refl m
      · rw [after_reset, after_of_error hreset]
        exact F.refl m
      · rw [after_bindText, after_of_error (hbind j bytes)]
        exact F.refl m
  · exact hF.aside (abiding_perform (Bool.eq_false_iff.mpr hq) m)

theorem inside_perform (h : m.bank.holder.Inside) (q : Request) : (after q.perform m).bank.holder.Inside := by
  have hspans : Spans ⟨fun m m' => m.bank.holder.Inside → m'.bank.holder.Inside, fun _ => id, fun h h' => h' ∘ h⟩ :=
    ⟨fun h => h.bank.holder.inside_of, fun ho hi => absurd ho hi.not_outside, fun ho hi => absurd ho hi.not_outside,
      fun _ _ ho hi => absurd ho hi.not_outside⟩
  exact hspans.perform (.inr h) q h

/-- One request takes the knowledge inside only if it is for a run that fails. -/
theorem side_perform (h : m.bank.holder.Outside) (q : Request) :
    if q.isFailedRun m then (after q.perform m).bank.holder.Inside else (after q.perform m).bank.holder.Outside := by
  by_cases hq : q.needsOutside = true
  · rcases q with (_ | _ | _ | _ | _ | _ | ⟨j, bytes⟩) | _ <;> try cases hq
    · cases hrun : run m with
      | ok code m₁ =>
        rw [after_run, after_of_ok hrun]
        simp only [isFailedRun, hrun]
        exact outside_of_run h hrun
      | error e m₁ =>
        rw [after_run, after_of_error hrun]
        simp only [isFailedRun, hrun]
        exact (run_error h hrun).2
    · obtain ⟨m₁, hreset, h₁⟩ := outside_reset h
      rw [after_reset, after_of_ok hreset]
      exact h₁
    · obtain ⟨code, m₁, hbind, h₁⟩ := outside_bindText h j bytes
      rw [after_bindText, after_of_ok hbind]
      exact h₁
  · have hfail : q.isFailedRun m = false := by
      rcases q with (_ | _) | _ <;> first | rfl | exact absurd rfl hq
    rw [hfail]
    exact (abiding_perform (P := fun _ => True) (Bool.eq_false_iff.mpr hq) m).bank.holder.outside_of h

theorem sided_perform (h : m.bank.holder.Outside ∨ m.bank.holder.Inside) (q : Request) :
    (after q.perform m).bank.holder.Outside ∨ (after q.perform m).bank.holder.Inside := by
  obtain hout | hin := h
  · have hq := side_perform hout q
    split at hq
    · exact .inr hq
    · exact .inl hq
  · exact .inr (inside_perform hin q)

theorem Spans.performAll {F : Frame Machine} (hF : Spans F) (h : m.bank.holder.Outside ∨ m.bank.holder.Inside)
    (qs : List Request) : F.rel m (performAll qs m) := by
  induction qs generalizing m with
  | nil => exact F.refl m
  | cons q qs ih => exact F.trans (hF.perform h q) (ih (sided_perform h q))

theorem inside_performAll (h : m.bank.holder.Inside) (qs : List Request) :
    (performAll qs m).bank.holder.Inside := by
  induction qs generalizing m with
  | nil => exact h
  | cons q qs ih => exact ih (inside_perform h q)

theorem side_performAll (h : m.bank.holder.Outside) (qs : List Request) :
    if someRunFails qs m then (performAll qs m).bank.holder.Inside else (performAll qs m).bank.holder.Outside := by
  induction qs generalizing m with
  | nil => exact h
  | cons q qs ih =>
    have hq := side_perform h q
    cases hfail : q.isFailedRun m with
    | true =>
      rw [hfail] at hq
      simp only [someRunFails, hfail, Bool.true_or, if_true]
      exact inside_performAll hq qs
    | false =>
      rw [hfail] at hq
      simp only [someRunFails, hfail, Bool.false_or]
      exact ih hq

/-- A program whose first instruction fails: no sheet takes an infinity. -/
def infinite : Setup where
  registers := 1
  program := #[⟨.real, 0, 1, 0, .real (.inf false), 0⟩]
  status := { useFlagCache := true }
  database := default

example : someRunFails [.columnKind 0, .call .run, .columnInt 1] (ofSetup infinite) = true := by decide +kernel

end Request

end QueryMachine
