import Mathlib
import QueryMachine.Proofs.Calls
import QueryMachine.Proofs.Checked
import QueryMachine.Proofs.Gathering
import QueryMachine.Proofs.Storing

/-!
Aggregates along a session. However the steps and results of aggregates on different registers follow one
another, and whatever other instructions and calls come between them, the result on a register is made
from the rows of the steps on this register since its last result.
-/

namespace QueryMachine.Machine

open Bank Aggregate Addend

variable {α β : Type} {r : Nat} {a : Aggregate} {m m₀ m₁ m₂ : Machine} {pc : Int} {sheet : Option Sheet}
  {i : Instruction}

section Contexts

theorem rests_bind {x : MachineM α} {k : α → MachineM β} (hk : ∀ v, resting.Keeps (k v)) :
    Rests (after x m) (after (x >>= k) m) := by
  cases h : x m with
  | ok v m' => rw [after_bind_of_ok h, after_of_ok h]; exact hk v m'
  | error e m' => rw [after_of_error (bind_of_error h), after_of_error h]; exact resting.refl m'

theorem lookup_cons_ite (l : List (Nat × Context)) (j : Nat) (c : Context) :
    ((j, c) :: l).lookup r = if r = j then some c else l.lookup r := by
  by_cases hr : r = j
  · simp [hr]
  · rw [List.lookup_cons, beq_eq_false_iff_ne.mpr hr, if_neg hr]

theorem lookup_filter_ne (l : List (Nat × Context)) (j : Nat) :
    (l.filter fun x => x.1 != j).lookup r = if r = j then none else l.lookup r := by
  induction l with
  | nil => simp
  | cons x l ih =>
    obtain ⟨k, c⟩ := x
    by_cases hk : k = j
    · rw [List.filter_cons_of_neg (by simp [hk]), ih, lookup_cons_ite, hk]
      split_ifs <;> rfl
    · rw [List.filter_cons_of_pos (by simp [hk]), lookup_cons_ite, lookup_cons_ite, ih]
      by_cases hr : r = j <;> simp [hr, Ne.symm hk]

/-- The machine with another context of a register. -/
def withContext (m : Machine) (j : Nat) (c : Option Context) : Machine :=
  { m with
    contexts := (c.map fun c => (j, c)).toList ++ m.contexts.filter fun x => x.1 != j }

theorem setContext_run (m : Machine) (j : Nat) (c : Option Context) :
    setContext j c m = .ok () (m.withContext j c) := by
  cases c <;> rfl

theorem lookup_withContext (m : Machine) (j : Nat) (c : Option Context) :
    (m.withContext j c).contexts.lookup r = if r = j then c else m.contexts.lookup r := by
  cases c with
  | none => exact lookup_filter_ne _ _
  | some c =>
    have hcons : (m.withContext j (some c)).contexts = (j, c) :: m.contexts.filter fun x => x.1 != j := rfl
    rw [hcons, lookup_cons_ite, lookup_filter_ne]
    split_ifs <;> rfl

end Contexts

section Turns

/-- The instruction that a turn comes to execute, and the machine it is executed in. -/
def reaches (pc : Int) (sheet : Option Sheet) (m : Machine) : Option (Instruction × Machine) :=
  match fetch pc m with
  | .error _ _ => none
  | .ok i _ =>
    if m.budget = 0 then none
    else
      match (liftM (prepare i) : MachineM Unit) (m.entered pc i sheet) with
      | .ok _ m₁ => some (i, m₁)
      | .error _ _ => none

theorem rests_entered (m : Machine) (pc : Int) (i : Instruction) (sheet : Option Sheet) :
    Rests m (m.entered pc i sheet) := by
  have h := settleTrace_eq (m.revealed sheet)
  rw [entered, enterTrace, h]
  exact ⟨rfl, rfl, rfl, rfl⟩

theorem resting_fetch (pc : Int) : resting.Keeps (fetch pc) :=
  Frame.Keeps.get.bind fun _ => (Frame.Keeps.expect _ _).bind fun _ => .pure _

theorem resting_settle (pc : Int) (i : Instruction) (flow : Flow) : resting.Keeps (settle pc i flow) := by
  cases flow with
  | leave code => exact .pure _
  | next => exact (resting_lift _).bind fun _ => (resting_lift _).bind fun _ => .pure _
  | jump target =>
    exact (resting_lift _).bind fun _ => (resting_lift _).bind fun _ =>
      .ite ((resting_lift _).bind fun _ => .pure _) (.pure _)
  | fail code => exact (resting_lift _).bind fun _ => .pure _

theorem reaches_eq_some (h : reaches pc sheet m = some (i, m₁)) :
    fetch pc m = .ok i m ∧ m.budget ≠ 0 ∧
      (liftM (prepare i) : MachineM Unit) (m.entered pc i sheet) = .ok () m₁ := by
  unfold reaches at h
  split at h
  · cases h
  · rename_i j m' hfetch
    obtain ⟨rfl, -⟩ := fetch_eq_ok hfetch
    split_ifs at h with hb
    split at h
    · rename_i hprepare
      cases h
      exact ⟨hfetch, hb, hprepare⟩
    · cases h

theorem rests_of_reaches (h : reaches pc sheet m = some (i, m₁)) : Rests m m₁ := by
  obtain ⟨-, -, hprepare⟩ := reaches_eq_some h
  have hrest := resting_lift (prepare i) (m.entered pc i sheet)
  rw [after_of_ok hprepare] at hrest
  exact resting.trans (rests_entered m pc i sheet) hrest

theorem rests_turn (h : reaches pc sheet m = some (i, m₁)) :
    Rests (after (step pc i) m₁) (after (turn pc sheet) m) := by
  obtain ⟨hfetch, hb, hprepare⟩ := reaches_eq_some h
  have hturn : after (turn pc sheet) m = after (step pc i >>= settle pc i) m₁ := by
    rw [after, turn_run hfetch hb, execute, bind_assoc, bind_of_ok hprepare]
    rfl
  rw [hturn]
  exact rests_bind (resting_settle pc i)

theorem rests_turn_of_none (h : reaches pc sheet m = none) : Rests m (after (turn pc sheet) m) := by
  cases hfetch : fetch pc m with
  | error e m' =>
    have hrest := resting_fetch pc (m.revealed sheet)
    cases hf : fetch pc (m.revealed sheet) with
    | ok i m₁ =>
      obtain ⟨rfl, -⟩ := fetch_eq_ok hf
      cases hfetch.symm.trans (fetch_congr (m := m.revealed sheet) rfl hf : fetch pc m = _)
    | error e m₁ =>
      rw [after_of_error hf] at hrest
      rw [after_of_error (show turn pc sheet m = .error e m₁ from
        (bind_of_ok (reveal_run _ _)).trans (bind_of_error hf))]
      exact resting.trans (⟨rfl, rfl, rfl, rfl⟩ : Rests m (m.revealed sheet)) hrest
  | ok i m' =>
    obtain ⟨rfl, -⟩ := fetch_eq_ok hfetch
    by_cases hb : m'.budget = 0
    · have hm : after (turn pc sheet) m' = m'.revealed sheet := by
        have hi : fetch pc (m'.revealed sheet) = .ok i (m'.revealed sheet) := fetch_congr (m := m') rfl hfetch
        have hbudget : (m'.revealed sheet).budget = 0 := hb
        simp only [after, turn, bind_of_ok (reveal_run _ _), bind_of_ok hi, bind_of_ok get_run, if_pos hbudget]
        rfl
      rw [hm]
      exact ⟨rfl, rfl, rfl, rfl⟩
    · have hrest := resting_lift (prepare i) (m'.entered pc i sheet)
      cases hprepare : (liftM (prepare i) : MachineM Unit) (m'.entered pc i sheet) with
      | ok u m₁ => simp [reaches, hfetch, hb, hprepare] at h
      | error e m₁ =>
        rw [after_of_error hprepare] at hrest
        have hm : after (turn pc sheet) m' = m₁ := by
          rw [after, turn_run hfetch hb, execute, bind_assoc, bind_of_error hprepare]
        rw [hm]
        exact resting.trans (rests_entered m' pc i sheet) hrest

end Turns

/-- The registers of the arguments and of the result of an aggregate. -/
def operands (i : Instruction) : MachineM (List Nat × Nat) := do
  if i.op = .aggStep then
    let args ← (Instruction.span i.p2 i.p5).mapM fun r => onBank (register r)
    return (args, ← register i.p3)
  else return ([], ← register i.p1)

/-- The function of an instruction for an aggregate over registers, the registers of its arguments and the
register of its result. -/
def aggregateCall (i : Instruction) : MachineM (Func × List Nat × Nat) := do
  let f ← callee i
  check f.isAggregate
  let (args, out) ← operands i
  return (f, args, out)

/-- Adds a row to the context of a register. -/
def addRow (f : Func) (args : List Nat) (out : Nat) : MachineM Flow := do
  let context ← f.openContext (← context? out)
  setContext out (some context)
  setContext out (some (← context.step args))
  return .next

/-- Writes the result of the aggregate of a register. -/
def giveResult (f : Func) (out : Nat) : MachineM Flow := do
  f.finalize (← context? out) out
  setContext out none
  return .next

theorem resting_callee (i : Instruction) : resting.Keeps (callee i) := resting_of_abiding (abiding_callee i)

theorem resting_operands (i : Instruction) : resting.Keeps (operands i) := by
  refine .ite ?_ ?_
  · exact .bind (.mapM fun r => resting_lift _) fun _ => (resting_lift _).bind fun _ => .pure _
  · exact (resting_lift _).bind fun _ => .pure _

theorem resting_aggregateCall (i : Instruction) : resting.Keeps (aggregateCall i) :=
  (resting_callee i).bind fun _ => (Frame.Keeps.check _).bind fun _ => (resting_operands i).bind fun _ => .pure _

/-- An instruction for an aggregate: `act` if it is one over registers, `other` if not. -/
def aggregateRule (i : Instruction) (act : Func → List Nat → Nat → MachineM Flow) (other : MachineM Flow) :
    MachineM Flow := do
  let f ← callee i
  if f.isAggregate then
    let (args, out) ← operands i
    act f args out
  else other

theorem tracked_aggStep_eq (hop : i.op = .aggStep) (pc : Int) :
    Tracked.aggStep pc i = aggregateRule i addRow (do forgetAll; Direct.aggStep pc i) := by
  simp only [Tracked.aggStep, aggregateRule, operands, addRow, if_pos hop, bind_assoc, pure_bind]

theorem tracked_aggFinal_eq (hop : i.op = .aggFinal) :
    Tracked.aggFinal i = aggregateRule i (fun f _ out => giveResult f out) (do forgetAll; Direct.aggFinal i) := by
  have hne : ¬ i.op = .aggStep := by simp [hop]
  simp only [Tracked.aggFinal, aggregateRule, operands, giveResult, if_neg hne, bind_assoc, pure_bind]

theorem aggregateRule_cases (act : Func → List Nat → Nat → MachineM Flow) {other : MachineM Flow}
    (hother : resting.Keeps other) (m : Machine) :
    (∃ f args out m₁, aggregateCall i m = .ok (f, args, out) m₁ ∧
      aggregateRule i act other m = act f args out m₁) ∨
    (∃ e m₁, aggregateCall i m = .error e m₁) ∧ Rests m (after (aggregateRule i act other) m) := by
  have hcallee := resting_callee i m
  cases hf : callee i m with
  | error e m₁ =>
    rw [after_of_error hf] at hcallee
    refine .inr ⟨⟨e, m₁, bind_of_error hf⟩, ?_⟩
    rw [after_of_error (show aggregateRule i act other m = .error e m₁ from bind_of_error hf)]
    exact hcallee
  | ok f m₁ =>
    rw [after_of_ok hf] at hcallee
    have hrule : aggregateRule i act other m = (if f.isAggregate then do
        let (args, out) ← operands i
        act f args out
      else other) m₁ := bind_of_ok hf
    have hcall : aggregateCall i m = (do
        check f.isAggregate
        let (args, out) ← operands i
        return (f, args, out) : MachineM (Func × List Nat × Nat)) m₁ := bind_of_ok hf
    rw [after, hrule, hcall]
    cases f.isAggregate with
    | false =>
      refine .inr ⟨⟨_, m₁, bind_of_error rfl⟩, ?_⟩
      exact resting.trans hcallee (hother m₁)
    | true =>
      have hoperands := resting_operands i m₁
      cases hop : operands i m₁ with
      | ok p m₂ =>
        refine .inl ⟨f, p.1, p.2, m₂, ?_, bind_of_ok hop⟩
        exact (bind_of_ok rfl).trans (bind_of_ok hop)
      | error e m₂ =>
        rw [after_of_error hop] at hoperands
        refine .inr ⟨⟨e, m₂, (bind_of_ok rfl).trans (bind_of_error hop)⟩, ?_⟩
        rw [if_pos rfl, bind_of_error hop]
        exact resting.trans hcallee hoperands

section Frames

/-- The rule leaves a part of the machine alone. -/
def Leaves {τ : Type} (part : Machine → τ) (x : MachineM α) : Prop := ∀ m, part (after x m) = part m

variable {τ : Type} {part : Machine → τ}

/-- The part stays as it is. -/
def staying (part : Machine → τ) : Frame Machine where
  rel m m' := part m' = part m
  refl _ := rfl
  trans h h' := h'.trans h

theorem Leaves.bind {x : MachineM α} {k : α → MachineM β} (hx : Leaves part x) (hk : ∀ v, Leaves part (k v)) :
    Leaves part (x >>= k) :=
  Frame.Keeps.bind (F := staying part) hx hk

/-- The contexts of a register, and the choice of the rules. -/
def contextPart (r : Nat) (m : Machine) : Option Context × (Family → Bool) :=
  (m.contexts.lookup r, m.status.tracked)

theorem leaves_context {x : MachineM α} (hx : resting.Keeps x) (r : Nat) : Leaves (contextPart r) x :=
  fun m => by rw [contextPart, contextPart, (hx m).contexts, (hx m).tracked]

theorem leaves_setContext {out : Nat} (h : r ≠ out) (c : Option Context) :
    Leaves (contextPart r) (setContext out c) := by
  intro m
  rw [after_of_ok (setContext_run m out c), contextPart, lookup_withContext, if_neg h]
  rfl

theorem resting_context? (out : Nat) : resting.Keeps (context? out) := Frame.Keeps.get.bind fun _ => .pure _

theorem leaves_addRow {out : Nat} (h : r ≠ out) (f : Func) (args : List Nat) :
    Leaves (contextPart r) (addRow f args out) := by
  refine (leaves_context (resting_context? out) r).bind fun c => ?_
  refine (leaves_context (resting_lift _) r).bind fun ctx => (leaves_setContext h _).bind fun _ => ?_
  refine (leaves_context (resting_lift _) r).bind fun ctx' => (leaves_setContext h _).bind fun _ => ?_
  exact leaves_context (.pure _) r

theorem leaves_giveResult {out : Nat} (h : r ≠ out) (f : Func) : Leaves (contextPart r) (giveResult f out) := by
  refine (leaves_context (resting_context? out) r).bind fun c => ?_
  refine (leaves_context (resting_lift _) r).bind fun _ => (leaves_setContext h _).bind fun _ => ?_
  exact leaves_context (.pure _) r

end Frames

section Own

variable {f : Func} {rows : List a.Row}

theorem openContext_of (hf : f.contextKind = .of a) (c : Option Context) :
    f.openContext c = pure (c.getD (.start a)) := by
  cases c <;> simp [Func.openContext, hf]

/-- A step adds the row that it reads; if there is none to be read, nothing is added. -/
theorem lookup_addRow (hf : f.contextKind = .of a) (args : List Nat)
    (hm : (m.contexts.lookup r).getD (.start a) = a.gather rows) :
    ((after (addRow f args r) m).contexts.lookup r).getD (.start a) =
      match a.read args m.bank with
      | .ok row _ => a.gather (rows ++ [row])
      | .error _ _ => a.gather rows := by
  have hopen : addRow f args r m = (do
      setContext r (some (← liftM ((a.gather rows).step args)))
      return .next : MachineM Flow) (m.withContext r (some (a.gather rows))) := by
    have hcontext : context? r m = .ok (m.contexts.lookup r) m := rfl
    rw [addRow, bind_of_ok hcontext, openContext_of hf, hm]
    exact (bind_of_ok rfl).trans (bind_of_ok (setContext_run _ _ _))
  have hstep := Context.step_eq (Context.aggregate?_gather a rows) args
  cases hread : a.read args m.bank with
  | ok row b =>
    have hrun : (a.gather rows).step args m.bank = .ok (a.add (a.gather rows) row) b := by
      rw [hstep, bind_of_ok hread]
      rfl
    have hlift := lift_of_ok (m := m.withContext r (some (a.gather rows))) hrun
    rw [bind_of_ok hlift, bind_of_ok (setContext_run _ _ _)] at hopen
    rw [after_of_ok hopen, lookup_withContext, if_pos rfl, Option.getD_some]
    exact (gather_append a rows row).symm
  | error e b =>
    have hrun : (a.gather rows).step args m.bank = .error e b := by rw [hstep, bind_of_error hread]
    have hlift := lift_of_error (m := m.withContext r (some (a.gather rows))) hrun
    rw [bind_of_error hlift] at hopen
    rw [after_of_error hopen]
    show ((m.withContext r (some (a.gather rows))).contexts.lookup r).getD _ = _
    rw [lookup_withContext, if_pos rfl, Option.getD_some]

theorem giveResult_run (hf : f.contextKind = .of a) (hm : (m.contexts.lookup r).getD (.start a) = a.gather rows) :
    giveResult f r m = (do
      a.finalize (some (a.gather rows)) r
      setContext r none
      return .next : MachineM Flow) m := by
  have hcontext : context? r m = .ok (m.contexts.lookup r) m := rfl
  have hfinalize : f.finalize (m.contexts.lookup r) r = a.finalize (some (a.gather rows)) r := by
    simp only [Func.finalize, hf]
    rw [finalize_getD, hm]
  rw [giveResult, bind_of_ok hcontext, hfinalize]

end Own

/-- What a turn is to the aggregate of a register. -/
inductive Deed (ρ : Type)
  | aside
  | row (x : ρ)
  | result
  /-- The register is used by another aggregate. -/
  | misuse
  deriving Repr, DecidableEq

/-- The rows of the aggregate of a register, as long as no other aggregate has used it. -/
def Deed.record {ρ : Type} : Deed ρ → Option (List ρ) → Option (List ρ)
  | aside, log => log
  | row x, log => log.map (· ++ [x])
  | result, _ => some []
  | misuse, _ => none

/-- What an instruction is to the aggregate `a` of the register `r`. -/
def deedOf (r : Nat) (a : Aggregate) (pc : Int) (i : Instruction) (m : Machine) : Deed a.Row :=
  if i.op = .aggStep ∨ i.op = .aggFinal then
    match aggregateCall i m with
    | .error _ _ => .aside
    | .ok (f, args, out) m₁ =>
      if out ≠ r then .aside
      else if f.contextKind ≠ .of a then .misuse
      else if i.op = .aggStep then
        match a.read args m₁.bank with
        | .ok row _ => .row row
        | .error _ _ => .aside
      else
        match step pc i m with
        | .ok _ _ => .result
        | .error _ _ => .aside
  else .aside

def deed (r : Nat) (a : Aggregate) (pc : Int) (sheet : Option Sheet) (m : Machine) : Deed a.Row :=
  match reaches pc sheet m with
  | some (i, m₁) => deedOf r a pc i m₁
  | none => .aside

/-- A history of a machine, and the rows that the aggregate `a` of the register `r` has got in it since its
last result. Between the turns, which may also fail, anything may happen that leaves contexts alone. -/
inductive Session (r : Nat) (a : Aggregate) (m₀ : Machine) : Option (List a.Row) → Machine → Prop
  | start : Session r a m₀ (some []) m₀
  | aside {log : Option (List a.Row)} {m : Machine} {α : Type} {x : MachineM α} :
      Session r a m₀ log m → Sparing x → Session r a m₀ log (after x m)
  | turn {log : Option (List a.Row)} {m : Machine} (pc : Int) (sheet : Option Sheet) :
      Session r a m₀ log m → Session r a m₀ ((deed r a pc sheet m).record log) (after (turn pc sheet) m)

/-- The contexts of aggregates over registers are used. -/
def Aggregates (m : Machine) : Prop :=
  m.status.tracked .aggStep = true ∧ m.status.tracked .aggFinal = true

/-- The context of the register is the one that the rows amount to. -/
def Amounts (r : Nat) (a : Aggregate) (log : Option (List a.Row)) (m : Machine) : Prop :=
  ∀ rows, log = some rows → (m.contexts.lookup r).getD (.start a) = a.gather rows

section Invariant

variable {log : Option (List a.Row)}

theorem Amounts.congr (h : Amounts r a log m) (hm : m₁.contexts.lookup r = m.contexts.lookup r) :
    Amounts r a log m₁ := by
  intro rows hrows
  rw [hm]
  exact h rows hrows

theorem step_aggStep (hop : i.op = .aggStep) (h : m.status.tracked .aggStep = true) :
    step pc i m = aggregateRule i addRow (do forgetAll; Direct.aggStep pc i) m := by
  simp only [step, hop]
  rw [choose_of_tracked h, tracked_aggStep_eq hop]

theorem step_aggFinal (hop : i.op = .aggFinal) (h : m.status.tracked .aggFinal = true) :
    step pc i m = aggregateRule i (fun f _ out => giveResult f out) (do forgetAll; Direct.aggFinal i) m := by
  simp only [step, hop]
  rw [choose_of_tracked h, tracked_aggFinal_eq hop]

theorem after_congr {x y : MachineM α} (h : x m = y m₁) : after x m = after y m₁ := by
  rw [after, after, h]

theorem amounts_aggregateRule {act : Func → List Nat → Nat → MachineM Flow} {other : MachineM Flow}
    (hop : i.op = .aggStep ∨ i.op = .aggFinal) (hrule : step pc i m = aggregateRule i act other m)
    (hother : resting.Keeps other)
    (hact : ∀ f args out j, j ≠ out → Leaves (contextPart j) (act f args out))
    (hown : ∀ f args m₁, aggregateCall i m = .ok (f, args, r) m₁ → m₁.contexts = m.contexts →
      step pc i m = act f args r m₁ → f.contextKind = .of a →
      Amounts r a ((deedOf r a pc i m).record log) (after (act f args r) m₁))
    (h : Amounts r a log m) :
    Amounts r a ((deedOf r a pc i m).record log) (after (step pc i) m) ∧
      (after (step pc i) m).status.tracked = m.status.tracked := by
  rcases aggregateRule_cases (i := i) act hother m with
    ⟨f, args, out, m₁, hcall, hrun⟩ | ⟨⟨e, m₁, hcall⟩, hrest⟩
  · have hframe := resting_aggregateCall i m
    rw [after_of_ok hcall] at hframe
    rw [after_congr (hrule.trans hrun)]
    have hstatus := (congrArg Prod.snd (hact f args out (out + 1) (by omega) m₁)).trans hframe.tracked
    by_cases hout : r = out
    · subst hout
      by_cases hf : f.contextKind = .of a
      · exact ⟨hown f args m₁ hcall hframe.contexts (hrule.trans hrun) hf, hstatus⟩
      · have hdeed : deedOf r a pc i m = .misuse := by simp [deedOf, hop, hcall, hf]
        rw [hdeed]
        exact ⟨fun _ hrows => (nomatch hrows), hstatus⟩
    · have hpart := hact f args out r hout m₁
      have hdeed : deedOf r a pc i m = .aside := by simp [deedOf, hop, hcall, Ne.symm hout]
      rw [hdeed]
      exact ⟨h.congr ((congrArg Prod.fst hpart).trans (by rw [contextPart, hframe.contexts])), hstatus⟩
  · have hdeed : deedOf r a pc i m = .aside := by simp [deedOf, hop, hcall]
    rw [hdeed, after_congr hrule]
    exact ⟨h.congr (by rw [hrest.contexts]), hrest.tracked⟩

theorem amounts_aggStep (hop : i.op = .aggStep) (ht : m.status.tracked .aggStep = true)
    (h : Amounts r a log m) :
    Amounts r a ((deedOf r a pc i m).record log) (after (step pc i) m) ∧
      (after (step pc i) m).status.tracked = m.status.tracked := by
  refine amounts_aggregateRule (.inl hop) (step_aggStep hop ht)
    ((resting_lift _).bind fun _ => resting_of_oblivious (Direct.oblivious_aggStep i pc))
    (fun f args out j hj => leaves_addRow hj f args) (fun f args m₁ hcall hcontexts hrun hf => ?_) h
  have hdeed : deedOf r a pc i m = match a.read args m₁.bank with
      | .ok row _ => .row row
      | .error _ _ => .aside := by
    simp [deedOf, hop, hcall, hf]
  intro rows' hrows'
  cases log with
  | none =>
    rw [hdeed] at hrows'
    split at hrows' <;> cases hrows'
  | some rows =>
    have hm : (m₁.contexts.lookup r).getD (.start a) = a.gather rows := by
      rw [hcontexts]
      exact h rows rfl
    rw [lookup_addRow hf args hm]
    rw [hdeed] at hrows'
    split at hrows' <;> cases hrows' <;> simp only [*]

theorem amounts_aggFinal (hop : i.op = .aggFinal) (ht : m.status.tracked .aggFinal = true)
    (h : Amounts r a log m) :
    Amounts r a ((deedOf r a pc i m).record log) (after (step pc i) m) ∧
      (after (step pc i) m).status.tracked = m.status.tracked := by
  refine amounts_aggregateRule (.inr hop) (step_aggFinal hop ht)
    ((resting_lift _).bind fun _ => resting_of_oblivious (Direct.oblivious_aggFinal i))
    (fun f args out j hj => leaves_giveResult hj f) (fun f args m₁ hcall hcontexts hrun hf => ?_) h
  have hdeed : deedOf r a pc i m = match giveResult f r m₁ with
      | .ok _ _ => .result
      | .error _ _ => .aside := by
    simp [deedOf, hop, hcall, hf, hrun]
  have hresult : giveResult f r m₁ = (do
      f.finalize (m₁.contexts.lookup r) r
      setContext r none
      return .next : MachineM Flow) m₁ := bind_of_ok rfl
  cases hfinal : f.finalize (m₁.contexts.lookup r) r m₁.bank with
  | ok u b =>
    rw [bind_of_ok (lift_of_ok hfinal), bind_of_ok (setContext_run _ _ _)] at hresult
    rw [hdeed, hresult, after_of_ok hresult]
    intro rows hrows
    cases hrows
    rw [lookup_withContext, if_pos rfl]
    rfl
  | error e b =>
    rw [bind_of_error (lift_of_error hfinal)] at hresult
    rw [hdeed, hresult, after_of_error hresult]
    exact h.congr (by rw [← hcontexts]; rfl)

variable (pc i) in
theorem amounts_step (ht : m.Aggregates) (h : Amounts r a log m) :
    Amounts r a ((deedOf r a pc i m).record log) (after (step pc i) m) ∧
      (after (step pc i) m).status.tracked = m.status.tracked := by
  by_cases hstep : i.op = .aggStep
  · exact amounts_aggStep hstep ht.1 h
  · by_cases hfinal : i.op = .aggFinal
    · exact amounts_aggFinal hfinal ht.2 h
    · have hdeed : deedOf r a pc i m = .aside := by simp [deedOf, hstep, hfinal]
      have hspare := (sparing_step hstep hfinal : Sparing (step pc i)) m
      rw [hdeed]
      exact ⟨h.congr (by rw [hspare.1]), hspare.2⟩

variable (pc sheet) in
theorem amounts_turn (ht : m.Aggregates) (h : Amounts r a log m) :
    Amounts r a ((deed r a pc sheet m).record log) (after (turn pc sheet) m) ∧
      (after (turn pc sheet) m).status.tracked = m.status.tracked := by
  cases hreach : reaches pc sheet m with
  | none =>
    have hrest := rests_turn_of_none hreach
    have hdeed : deed r a pc sheet m = .aside := by simp [deed, hreach]
    rw [hdeed]
    exact ⟨h.congr (by rw [hrest.contexts]), hrest.tracked⟩
  | some p =>
    obtain ⟨i, m₁⟩ := p
    have hrest := rests_turn hreach
    have hframe := rests_of_reaches hreach
    have hdeed : deed r a pc sheet m = deedOf r a pc i m₁ := by simp [deed, hreach]
    have ht₁ : m₁.Aggregates := by rwa [Aggregates, hframe.tracked]
    have h₁ : Amounts r a log m₁ := h.congr (by rw [hframe.contexts])
    obtain ⟨hamounts, hstatus⟩ := amounts_step pc i ht₁ h₁
    rw [hdeed]
    exact ⟨hamounts.congr (by rw [hrest.contexts]), hrest.tracked.trans (hstatus.trans hframe.tracked)⟩

/-- Along a session the context of a register is the one that its rows amount to. -/
theorem Session.amounts (hs : Session r a m₀ log m) (hm₀ : m₀.contexts = []) (ht : m₀.Aggregates) :
    Amounts r a log m ∧ m.Aggregates := by
  induction hs with
  | start =>
    refine ⟨fun rows hrows => ?_, ht⟩
    cases hrows
    rw [hm₀]
    rfl
  | aside _ hx ih =>
    obtain ⟨hcontexts, htracked⟩ := hx _
    exact ⟨ih.1.congr (by rw [hcontexts]), by rw [Aggregates, htracked]; exact ih.2⟩
  | turn pc sheet _ ih =>
    obtain ⟨hamounts, htracked⟩ := amounts_turn pc sheet ih.2 ih.1
    exact ⟨hamounts, by rw [Aggregates, htracked]; exact ih.2⟩

end Invariant

section Calls

variable {log : Option (List a.Row)}

theorem Session.persists (r : Nat) (a : Aggregate) (m₀ : Machine) :
    Persists fun m => ∃ log, Session r a m₀ log m where
  aside hx h := h.imp fun _ hs => hs.aside (.of_resting hx)
  turn pc sheet h := h.elim fun _ hs => ⟨_, hs.turn pc sheet⟩

theorem Session.call (hs : Session r a m₀ log m) (c : Call) : ∃ log', Session r a m₀ log' (after c.perform m) :=
  (Session.persists r a m₀).call ⟨log, hs⟩ c

end Calls

section Results

/-- A turn comes to finish the aggregate `a` of the register `r`: the machine is `m₁` when it executes the
instruction `i`, and `m₂` when it has found the function. -/
def Finishes (r : Nat) (a : Aggregate) (pc : Int) (sheet : Option Sheet) (m : Machine) (i : Instruction)
    (m₁ m₂ : Machine) : Prop :=
  reaches pc sheet m = some (i, m₁) ∧ i.op = .aggFinal ∧
    ∃ f args, aggregateCall i m₁ = .ok (f, args, r) m₂ ∧ f.contextKind = .of a

/-- The rule goes on with the next instruction; the register shows `v` and has no context any more. -/
def Stores (x : MachineM Flow) (m : Machine) (r : Nat) (v : View) : Prop :=
  ∃ m', x m = .ok .next m' ∧ m'.contexts.lookup r = none ∧ (m'.bank.cellAt r).view = v

theorem Finishes.run {rows : List a.Row} (h : Finishes r a pc sheet m i m₁ m₂) (hm₀ : m₀.contexts = [])
    (ht : m₀.Aggregates) (hs : Session r a m₀ (some rows) m) :
    step pc i m₁ = (do
      a.finalize (some (a.gather rows)) r
      setContext r none
      return .next : MachineM Flow) m₂ := by
  obtain ⟨hreach, hop, f, args, hcall, hf⟩ := h
  obtain ⟨hamounts, hstatus⟩ := hs.amounts hm₀ ht
  have hframe := rests_of_reaches hreach
  have hspare := resting_aggregateCall i m₁
  rw [after_of_ok hcall] at hspare
  have ht₁ : m₁.status.tracked .aggFinal = true := by rw [hframe.tracked]; exact hstatus.2
  have hm₂ : (m₂.contexts.lookup r).getD (.start a) = a.gather rows := by
    rw [hspare.contexts, hframe.contexts]
    exact hamounts rows rfl
  rw [step_aggFinal hop ht₁, ← giveResult_run hf hm₂]
  have hother : resting.Keeps (do forgetAll; Direct.aggFinal i) :=
    (resting_lift _).bind fun _ => resting_of_oblivious (Direct.oblivious_aggFinal i)
  rcases aggregateRule_cases (i := i) (fun f _ out => giveResult f out) hother m₁ with
    ⟨f', args', out', m₂', hcall', hrun⟩ | ⟨⟨e, m', hcall'⟩, -⟩
  · cases hcall.symm.trans hcall'
    exact hrun
  · cases hcall.symm.trans hcall'

theorem callee_bank {f : Func} (h : callee i m = .ok f m₁) : m₁.bank = m.bank := by
  obtain ⟨ref, m', href, hrest⟩ := bind_eq_ok h
  have hm' : m' = m := by
    cases hfunc : i.p4.func? with
    | none => rw [hfunc] at href; cases href
    | some ref' => rw [hfunc] at href; cases href; rfl
  rw [hm', bind_of_ok get_run] at hrest
  cases hfind : m.registry.find ref with
  | ok p => rw [hfind] at hrest; cases hrest; rfl
  | error e => rw [hfind] at hrest; cases hrest

theorem aggregateCall_bank {f : Func} {args : List Nat} (hop : i.op = .aggFinal)
    (h : aggregateCall i m = .ok (f, args, r) m₁) : m₁.bank = m.bank ∧ r < m.bank.reach := by
  obtain ⟨g, m', hcallee, h⟩ := bind_eq_ok h
  obtain ⟨-, h⟩ := check_bind_eq_ok h
  obtain ⟨⟨args', out⟩, m'', hoperands, h⟩ := bind_eq_ok h
  cases h
  have hne : ¬ i.op = .aggStep := by simp [hop]
  rw [operands, if_neg hne] at hoperands
  obtain ⟨k, m₃, hregister, hpure⟩ := bind_eq_ok hoperands
  cases hpure
  obtain ⟨b, hb, rfl⟩ := lift_eq_ok hregister
  rw [register, bind_of_ok get_run] at hb
  rw [← callee_bank hcallee]
  cases hw : wrapIndex? m'.bank.reach i.p1 with
  | none => rw [hw] at hb; cases hb
  | some j =>
    rw [hw] at hb
    cases hb
    exact ⟨rfl, wrapIndex?_lt hw⟩

theorem keeps_revealed {s : Sheet} (hindexed : m.bank.indexed = true) (hplain : s.Plain)
    (hwidth : s.facts.length = m.bank.cells.size) (hledger : m.bank.ledger.Plain)
    (hblank : m.bank.holder.blank.facts = List.replicate m.bank.cells.size {})
    (hunused : m.bank.holder.useCache = false → s = m.bank.holder.blank) : (m.revealed (some s)).bank.Keeps s :=
  ⟨hindexed, rfl, hplain, hwidth, hledger, hblank, hunused⟩

/-- When an aggregate is finished, the registers have just been checked. -/
theorem Finishes.settled {t : Sheet} (h : Finishes r a pc sheet m i m₁ m₂)
    (hkeeps : (m.revealed sheet).bank.Keeps t) (hreach : m.bank.reach ≤ m.bank.cells.size) :
    m₂.bank.Settled r := by
  obtain ⟨hreached, hop, f, args, hcall, -⟩ := h
  obtain ⟨-, -, hprepare⟩ := reaches_eq_some hreached
  obtain ⟨b, hrun, rfl⟩ := lift_eq_ok hprepare
  rw [bank_entered] at hrun
  have hprep : prepare i (m.revealed sheet).bank = (do checkRegisters; checkRegisters) (m.revealed sheet).bank := by
    have hsecond : i.op.overwritesSecond = false := by rw [hop]; rfl
    have hkept : i.op.keepsKnowledge = true := by rw [hop]; rfl
    simp only [prepare, hsecond, hkept]
    rfl
  rw [hprep] at hrun
  have hguards := hkeeps.guards_checkRegisters
  obtain ⟨hbank, hr⟩ := aggregateCall_bank hop hcall
  rcases hguards with ⟨hpass, hholds⟩ | ⟨hfail, -⟩
  · rw [bind_of_ok hpass, hpass] at hrun
    cases hrun
    rw [hbank]
    exact ⟨Nat.lt_of_lt_of_le hr hreach, t, hkeeps, (hholds r hr).flags⟩
  · rw [bind_of_error hfail] at hrun
    cases hrun

theorem stores_of_ends {x : BankM Unit} {v : View} {y : MachineM Flow}
    (hrun : y m₁ = (do liftM x; setContext r none; return .next : MachineM Flow) m₂)
    (hends : Ends r x m₂.bank fun _ c => c.view = v) : Stores y m₁ r v := by
  obtain ⟨u, b, hx, -, hview⟩ := hends
  refine ⟨(m₂.withBank b).withContext r none, ?_, ?_, hview⟩
  · rw [hrun, bind_of_ok (lift_of_ok hx), bind_of_ok (setContext_run _ _ _)]
    rfl
  · rw [lookup_withContext, if_pos rfl]

def sumView (rows : List Addend) : View :=
  if (leading rows).length = rows.length then .ofInt (leading rows).sum else .ofDouble (total rows)

theorem sum_finalize_overflow {rows : List Addend} (hrows : rows ≠ [])
    (h : ∃ p, p <+: leading rows ∧ fitsWord p.sum = false) :
    Aggregate.sum.finalize (some (Aggregate.sum.gather rows)) r = throw (.functionFailed "integer overflow") := by
  have hcount : (RunningSum.ofRows rows).count ≠ 0 := by rw [RunningSum.count_ofRows]; simpa using hrows
  simp [gather_sum, finalize, hcount, (RunningSum.overflow_ofRows rows).mpr h]

theorem ends_sum {b : Bank} {rows : List Addend} (hb : b.Settled r) (hrows : rows ≠ [])
    (h : ∀ p, p <+: leading rows → fitsWord p.sum = true) :
    Ends r (Aggregate.sum.finalize (some (Aggregate.sum.gather rows)) r) b fun _ c => c.view = sumView rows := by
  have hcount : (RunningSum.ofRows rows).count ≠ 0 := by rw [RunningSum.count_ofRows]; simpa using hrows
  have hoverflow : (RunningSum.ofRows rows).overflow = false := by
    by_contra hover
    obtain ⟨p, hp, hsum⟩ := (RunningSum.overflow_ofRows rows).mp (by simpa using hover)
    simp [h p hp] at hsum
  have hlength := length_leading_le rows
  simp only [gather_sum, finalize, hcount, if_false, hoverflow, Bool.false_eq_true]
  by_cases happrox : (RunningSum.ofRows rows).approx = true
  · have hlt := (RunningSum.approx_ofRows rows).mp happrox
    rw [if_pos happrox, sumView, if_neg (by omega), RunningSum.real_ofRows]
    exact hb.setDouble _
  · have hge := mt (RunningSum.approx_ofRows rows).mpr happrox
    rw [if_neg happrox, sumView, if_pos (by omega), RunningSum.int_ofRows rows hoverflow]
    exact hb.setInteger (h _ (List.prefix_refl _))

theorem ends_count {b : Bank} {rows : List Bool} (hb : b.Settled r) (h : fitsWord (rows.count true : Int) = true) :
    Ends r (Aggregate.count.finalize (some (Aggregate.count.gather rows)) r) b
      fun _ c => c.view = .ofInt (rows.count true) := by
  rw [gather_count]
  exact hb.setInteger h

theorem ends_avg {b : Bank} {rows : List Addend} (hb : b.Settled r) (hrows : rows ≠ []) :
    Ends r (Aggregate.avg.finalize (some (Aggregate.avg.gather rows)) r) b
      fun _ c => c.view = .ofDouble ((total rows).div (.ofInt rows.length)) := by
  have hcount : rows.length ≠ 0 := by simpa using hrows
  simp only [gather_avg, finalize, RunningSum.mean, RunningSum.real_ofRows, RunningSum.count_ofRows, hcount, if_false]
  exact hb.setDouble _

/-- However the uses of registers by aggregates follow one another, the result on a register is made from the
rows on this register since its last result. A sum fails exactly if a sum of leading integers is too large;
otherwise it is their exact sum if there are no other rows, and a double if there are. A count is the number
of the rows that count. -/
theorem result_of_own_rows {t : Sheet} (hm₀ : m₀.contexts = []) (ht : m₀.Aggregates)
    (hkeeps : (m.revealed sheet).bank.Keeps t) (hreach : m.bank.reach ≤ m.bank.cells.size) :
    (∀ (a : Aggregate) (rows : List a.Row), Session r a m₀ (some rows) m → Finishes r a pc sheet m i m₁ m₂ →
      step pc i m₁ = (do
        a.finalize (some (a.gather rows)) r
        setContext r none
        return .next : MachineM Flow) m₂) ∧
    (∀ rows : List Addend, Session r .sum m₀ (some rows) m → Finishes r .sum pc sheet m i m₁ m₂ → rows ≠ [] →
      ((∃ m', step pc i m₁ = .error (.functionFailed "integer overflow") m') ↔
        ∃ p, p <+: leading rows ∧ fitsWord p.sum = false) ∧
      ((∀ p, p <+: leading rows → fitsWord p.sum = true) →
        Stores (step pc i) m₁ r
          (if (leading rows).length = rows.length then .ofInt (leading rows).sum
          else .ofDouble (total rows)))) ∧
    (∀ rows : List Bool, Session r .count m₀ (some rows) m → Finishes r .count pc sheet m i m₁ m₂ →
      fitsWord (rows.count true : Int) = true → Stores (step pc i) m₁ r (.ofInt (rows.count true))) ∧
    ∀ rows : List Addend, Session r .avg m₀ (some rows) m → Finishes r .avg pc sheet m i m₁ m₂ → rows ≠ [] →
      Stores (step pc i) m₁ r (.ofDouble ((total rows).div (.ofInt rows.length))) := by
  refine ⟨fun a rows hs hfin => hfin.run hm₀ ht hs, fun rows hs hfin hrows => ?_, fun rows hs hfin hfits => ?_,
    fun rows hs hfin hrows => ?_⟩
  · have hrun := hfin.run hm₀ ht hs
    have hstores (h : ∀ p, p <+: leading rows → fitsWord p.sum = true) :
        Stores (step pc i) m₁ r (sumView rows) :=
      stores_of_ends hrun (ends_sum (hfin.settled hkeeps hreach) hrows h)
    refine ⟨⟨fun ⟨m', hfail⟩ => ?_, fun h => ?_⟩, hstores⟩
    · by_contra hfits
      obtain ⟨m'', hok, -⟩ := hstores fun p hp => by
        by_contra hsum
        exact hfits ⟨p, hp, by simpa using hsum⟩
      cases hfail.symm.trans hok
    · rw [sum_finalize_overflow hrows h] at hrun
      exact ⟨m₂, hrun⟩
  · exact stores_of_ends (hfin.run hm₀ ht hs) (ends_count (hfin.settled hkeeps hreach) hfits)
  · exact stores_of_ends (hfin.run hm₀ ht hs) (ends_avg (hfin.settled hkeeps hreach) hrows)

/-- Steps of a sum in register 3 with a step of a count in register 4 between them. -/
def overflowingSum : Machine where
  bank := Bank.ofCells #[{}, { flags := .onlyInt, payload := intToWord maxWord },
    { flags := .onlyInt, payload := 1 }, {}, {}, { flags := .onlyInt, payload := intToWord (-1) }] false true 0
  program :=
    let sum := Operand.func (.ofBuiltin "sum" 1 true)
    #[⟨.aggStep, 0, 1, 3, sum, 1⟩, ⟨.aggStep, 0, 0, 4, .func (.ofBuiltin "count" 0 true), 0⟩,
      ⟨.aggStep, 0, 2, 3, sum, 1⟩, ⟨.aggStep, 0, 5, 3, sum, 1⟩, ⟨.aggFinal, 3, 1, 0, sum, 0⟩]
  status := { useFlagCache := false }
  database := default
  cursors := #[]
  once := #[]
  registers := 5
  width := 0

def overflowingSumAt : Nat → Machine
  | 0 => overflowingSum
  | n + 1 => after (turn n (some overflowingSum.bank.holder.blank)) (overflowingSumAt n)

/-- The greatest integer, one and minus one: the sum fails although it would fit in the end. -/
theorem result_of_own_rows_overflowingSum :
    Session 3 .sum overflowingSum (some [.integer maxWord, .integer 1, .integer (-1)]) (overflowingSumAt 4) ∧
      ∃ i m₁ m₂ m', Finishes 3 .sum 4 (some overflowingSum.bank.holder.blank) (overflowingSumAt 4) i m₁ m₂ ∧
        step 4 i m₁ = .error (.functionFailed "integer overflow") m' := by
  have h₁ := (.start : Session 3 .sum overflowingSum (some []) overflowingSum).turn 0 (some overflowingSum.bank.holder.blank)
  rw [show deed 3 .sum 0 _ _ = .row (.integer maxWord) by decide +kernel] at h₁
  have h₂ := h₁.turn 1 (some overflowingSum.bank.holder.blank)
  rw [show deed 3 .sum 1 _ _ = .aside by decide +kernel] at h₂
  have h₃ := h₂.turn 2 (some overflowingSum.bank.holder.blank)
  rw [show deed 3 .sum 2 _ _ = .row (.integer 1) by decide +kernel] at h₃
  have h₄ := h₃.turn 3 (some overflowingSum.bank.holder.blank)
  rw [show deed 3 .sum 3 _ _ = .row (.integer (-1)) by decide +kernel] at h₄
  have hfinishes : ∃ i m₁ m₂,
      Finishes 3 .sum 4 (some overflowingSum.bank.holder.blank) (overflowingSumAt 4) i m₁ m₂ := by
    have hcall : ((reaches 4 (some overflowingSum.bank.holder.blank) (overflowingSumAt 4)).map fun p =>
        match aggregateCall p.1 p.2 with
        | .ok (f, _, out) _ => p.1.op == .aggFinal && f.contextKind == .of .sum && out == 3
        | .error _ _ => false) = some true := by
      decide +kernel
    obtain ⟨⟨i, m₁⟩, hreach, hi⟩ := Option.map_eq_some_iff.mp hcall
    split at hi
    · rename_i f args out m₂ hc
      simp only [Bool.and_eq_true, beq_iff_eq] at hi
      obtain ⟨⟨hop, hf⟩, rfl⟩ := hi
      exact ⟨i, m₁, m₂, hreach, hop, f, args, hc, hf⟩
    · cases hi
  have hkeeps : ((overflowingSumAt 4).revealed (some overflowingSum.bank.holder.blank)).bank.Keeps
      overflowingSum.bank.holder.blank := by
    have hledger : ∀ s ∈ (overflowingSumAt 4).bank.ledger.sheets, ∀ f ∈ s.facts, f.real = .int 0 := by
      decide +kernel
    refine keeps_revealed (by decide +kernel) (replicate_plain _) (by decide +kernel) (fun s hs f hf => ?_)
      (by decide +kernel) (fun _ => by decide +kernel)
    rw [Fact.Plain, hledger s hs f hf]
    rfl
  obtain ⟨i, m₁, m₂, hfin⟩ := hfinishes
  have hempty : overflowingSum.contexts = [] := rfl
  have haggregates : overflowingSum.Aggregates := ⟨rfl, rfl⟩
  have hsum := (result_of_own_rows hempty haggregates hkeeps (by decide +kernel)).2.1 _ h₄ hfin (by simp)
  obtain ⟨m', hfail⟩ := hsum.1.mpr ⟨[maxWord, 1], by decide, by decide⟩
  exact ⟨h₄, i, m₁, m₂, m', hfin, hfail⟩

end Results

end QueryMachine.Machine
