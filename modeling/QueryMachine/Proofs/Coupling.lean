import Mathlib
import QueryMachine.Proofs.Aggregates
import QueryMachine.Proofs.Sides
import QueryMachine.Proofs.Switching

/-!
Families that have to agree, along runs. Two vectors are compared and the jump by their order is taken by the same
set of rules, so that the jump sees what the last comparison found.
-/

namespace QueryMachine.Machine

open Bank

variable {α : Type} {m m₁ : Machine} {i : Instruction} {pc : Int} {sheet : Option Sheet} {o : Ordering} {s : Setup}

/-! One instruction. -/

/-- Where families agree that have to, none of their rules gives up because of the other. -/
theorem agreeing_run (h : m.status.Coupled) (f : Family) (x y : MachineM α) :
    agreeing f x y m = (if m.status.tracked f then x else y) m := by
  simp only [agreeing, bind_of_ok get_run, h f, choose]
  cases m.status.tracked f <;> rfl

theorem step_compare (h : m.status.Coupled) (hop : i.op = .compare) :
    step pc i m = thenNext (if m.status.tracked .compare then Tracked.compare i else Direct.compare i) m := by
  simp only [step, hop, thenNext, bind, EStateM.bind, agreeing_run h]

theorem step_jump (h : m.status.Coupled) (hop : i.op = .jump) :
    step pc i m = (if m.status.tracked .jump then Tracked.jump i else Direct.jump i) m := by
  simp only [step, hop, agreeing_run h]

/-- The order in which an instruction finds two vectors by the rules of its side, if it comes to one. -/
def weigh (i : Instruction) (m : Machine) : Option Ordering :=
  match i.p4.key? with
  | none => none
  | some k =>
    if i.p3 ≤ 0 then none
    else if m.status.tracked .compare then
      if i.option 0 then none else (Tracked.compareVectors k i.p1 i.p2 i.p3.toNat 0).run' m.bank
    else (Direct.compareVectors k i.p1 i.p2 i.p3.toNat 0).run' m.bank

/-- The order that the next jump goes by. -/
def verdict (m : Machine) : Ordering := if m.status.tracked .compare then m.order else m.directOrder

/-- What becomes of this order when an instruction is executed. A jump by the tracked rule uses it up. -/
def judge (i : Instruction) (m : Machine) (o : Ordering) : Ordering :=
  if i.op = .compare then (weigh i m).getD o
  else if i.op = .jump ∧ m.status.tracked .jump then .eq
  else o

theorem run'_of_error {x : BankM α} {b b' : Bank} {e : Fault} (h : x b = .error e b') : x.run' b = none := by
  rw [EStateM.run', EStateM.run, h]

theorem noted_order {x : BankM Ordering} {f : Ordering → Machine → Machine} {g : Machine → Ordering}
    (hf : ∀ o m, g (f o m) = o) (hg : ∀ m b, g (m.withBank b) = g m) (m : Machine) :
    g (after (do let o ← liftM x; modify (f o) : MachineM PUnit) m) = (x.run' m.bank).getD (g m) := by
  cases h : x m.bank with
  | ok o b => rw [after_bind_of_ok (lift_of_ok h), answer_of_ok h]; exact hf o _
  | error e b => rw [after_of_error (bind_of_error (lift_of_error h)), run'_of_error h]; exact hg m b

theorem order_trackedCompare (ht : m.status.tracked .compare = true) :
    (after (Tracked.compare i) m).order = (weigh i m).getD m.order := by
  cases hkey : i.p4.key? with
  | none =>
    have hsame : after (Tracked.compare i) m = m := by
      simp only [Tracked.compare, hkey]
      cases i.option 0 <;> cases decide (0 < i.p3) <;> rfl
    rw [hsame, weigh, hkey]
    rfl
  | some k =>
    by_cases hbad : i.option 0 = true ∨ i.p3 ≤ 0
    · have hsame : after (Tracked.compare i) m = m := by
        rcases hbad with hoption | hwide
        · simp only [Tracked.compare, hoption]
          rfl
        · simp only [Tracked.compare, decide_eq_false (Int.not_lt.mpr hwide)]
          cases i.option 0 <;> rfl
      have hnone : weigh i m = none := by
        rcases hbad with hoption | hwide
        · simp [weigh, hkey, ht, hoption]
        · simp [weigh, hkey, hwide]
      rw [hsame, hnone]
      rfl
    · obtain ⟨hoption, hwide⟩ := not_or.mp hbad
      have hwide' : 0 < i.p3 := Int.not_le.mp hwide
      have hrun : Tracked.compare i m = (do
          let o ← liftM (Tracked.compareVectors k i.p1 i.p2 i.p3.toNat 0)
          modify fun m => { m with order := o } : MachineM Unit) m := by
        simp only [Tracked.compare, hkey, if_neg hoption, decide_eq_true hwide']
        rfl
      rw [after, hrun, weigh, hkey]
      simp only [if_neg hwide, if_pos ht, if_neg hoption]
      exact noted_order (f := fun o m => { m with order := o }) (fun _ _ => rfl) (fun _ _ => rfl) m

theorem order_directCompare (ht : m.status.tracked .compare = false) :
    (after (Direct.compare i) m).directOrder = (weigh i m).getD m.directOrder := by
  have ht' : ¬ m.status.tracked .compare = true := by simp [ht]
  unfold Direct.compare weigh
  split
  · rename_i k hkey
    rw [hkey]
    by_cases hwide : 0 < i.p3
    · simp only [if_pos hwide, if_neg (Int.not_le.mpr hwide), if_neg ht']
      exact noted_order (f := fun o m => { m with directOrder := o }) (fun _ _ => rfl) (fun _ _ => rfl) m
    · simp only [if_neg hwide, if_pos (Int.not_lt.mp hwide)]
      rfl
  · rename_i hkey
    rw [hkey]
    rfl

/-- Every instruction does to the order what is said of it, and none changes the choice of the rules. -/
theorem verdict_step (h : m.status.Coupled) (pc : Int) (i : Instruction) :
    (after (step pc i) m).verdict = judge i m m.verdict ∧
      (after (step pc i) m).status.tracked = m.status.tracked := by
  have htracked := (abiding_step (fun _ hp => hp.elim) : (abiding fun _ => False).Keeps (step pc i)) m |>.tracked
  refine ⟨?_, htracked⟩
  rw [verdict, htracked]
  by_cases hcompare : i.op = .compare
  · rw [after, step_compare h hcompare, judge, if_pos hcompare, verdict]
    -- Which of the two orders is the verdict depends on the side, and so does the rule that writes it.
    have hnext (x : MachineM Unit) : after (thenNext x) m = after x m := Request.after_answer x _ m
    cases ht : m.status.tracked .compare with
    | true => exact (congrArg order (hnext (Tracked.compare i))).trans (order_trackedCompare ht)
    | false => exact (congrArg directOrder (hnext (Direct.compare i))).trans (order_directCompare ht)
  · by_cases hjump : i.op = .jump
    · have hsame : m.status.tracked .jump = m.status.tracked .compare := h .compare
      rw [after, step_jump h hjump, judge, if_neg hcompare, verdict, hsame]
      cases m.status.tracked .compare <;> simp [hjump] <;> rfl
    · have horders := (abiding_step_of pc (Opcode.leaves_orders hcompare hjump) m).orders rfl
      have hjudge : judge i m m.verdict = m.verdict := by simp [judge, hcompare, hjump]
      rw [hjudge, horders.1, horders.2, verdict]

/-! Turns and runs. -/

/-- What becomes of the order in a turn. -/
def judged (pc : Int) (sheet : Option Sheet) (m : Machine) (o : Ordering) : Ordering :=
  match reaches pc sheet m with
  | some (i, m₁) => judge i m₁ o
  | none => o

/-- A history of a machine, and the order that its comparisons have come to: what the last one found, unless a jump
has used it up. Between the turns, which may also fail, anything may happen that is neither a comparison nor a jump
and leaves the choice of the rules alone. -/
inductive Weighing (s : Setup) : Ordering → Machine → Prop
  | start : Weighing s .eq (ofSetup s)
  | aside {o : Ordering} {m : Machine} {α : Type} {x : MachineM α} :
      Weighing s o m → resting.Keeps x → Weighing s o (after x m)
  | turn {o : Ordering} {m : Machine} (pc : Int) (sheet : Option Sheet) :
      Weighing s o m → Weighing s (judged pc sheet m o) (after (turn pc sheet) m)

theorem Weighing.persists (s : Setup) : Persists fun m => ∃ o, Weighing s o m where
  aside hx h := h.imp fun _ hw => hw.aside hx
  turn pc sheet h := h.elim fun _ hw => ⟨_, hw.turn pc sheet⟩

theorem Rests.verdict (h : Rests m m₁) : m₁.verdict = m.verdict := by
  simp only [Machine.verdict, h.tracked, h.order, h.directOrder]

/-- Along a history the jumps go by the order that the comparisons have come to, and the choice of the rules stays. -/
theorem Weighing.verdict (hw : Weighing s o m) (hs : s.status.Coupled) :
    m.verdict = o ∧ m.status.tracked = s.status.tracked := by
  induction hw with
  | start =>
    refine ⟨?_, rfl⟩
    unfold Machine.verdict
    split <;> rfl
  | aside _ hx ih => exact ⟨(hx _).verdict.trans ih.1, (hx _).tracked.trans ih.2⟩
  | @turn o m pc sheet _ ih =>
    rw [judged]
    cases hreach : reaches pc sheet m with
    | none =>
      have hrest := rests_turn_of_none hreach
      exact ⟨hrest.verdict.trans ih.1, hrest.tracked.trans ih.2⟩
    | some p =>
      obtain ⟨i, m₁⟩ := p
      -- What a turn does before and after its instruction leaves both orders alone.
      have hbefore := rests_of_reaches hreach
      have hrest := rests_turn hreach
      have hm₁ : m₁.status.Coupled := hs.of_tracked (hbefore.tracked.trans ih.2)
      obtain ⟨hverdict, htracked⟩ := verdict_step hm₁ pc i
      rw [hbefore.verdict.trans ih.1] at hverdict
      exact ⟨hrest.verdict.trans hverdict, hrest.tracked.trans (htracked.trans (hbefore.tracked.trans ih.2))⟩

/-- Families that have to agree do so after every history of changes of the status. Hence, along every sequence of
requests to a machine with such a status and in every turn of its runs, the rules are chosen by this status, a
comparison of two vectors and a jump are executed by the same set of rules and do not give up because of the other,
and the jump goes where the order says that the comparisons of this set have come to. -/
theorem jump_by_the_rules_of_compare (s : Setup) (cs : List Status.Change) (cached : Bool) :
    let t := Status.applyAll cs { useFlagCache := cached }
    (t.tracked .compare = t.tracked .jump ∧ t.tracked .aggStep = t.tracked .aggFinal) ∧
    (∀ qs, ∃ o, Weighing { s with status := t } o (Request.performAll qs (ofSetup { s with status := t }))) ∧
    ∀ o m, Weighing { s with status := t } o m → ∀ pc sheet i m₁, reaches pc sheet m = some (i, m₁) →
      m₁.status.tracked = t.tracked ∧
      (i.op = .compare →
        step pc i m₁ = thenNext (if t.tracked .compare then Tracked.compare i else Direct.compare i) m₁) ∧
      (i.op = .jump → step pc i m₁ = .ok (.jump (Tracked.target i o))
        (if t.tracked .compare then { m₁ with order := .eq } else m₁)) := by
  intro t
  have ht : t.Coupled := Status.coupled_applyAll cached cs
  refine ⟨⟨(ht .compare).symm, (ht .aggStep).symm⟩, fun qs => ?_, fun o m hw pc sheet i m₁ hreach => ?_⟩
  · exact Request.persists_performAll (Weighing.persists _) ⟨.eq, .start⟩ qs
  · obtain ⟨hverdict, htracked⟩ := hw.verdict ht
    have hbefore := rests_of_reaches hreach
    have htracked₁ : m₁.status.tracked = t.tracked := hbefore.tracked.trans htracked
    have hm₁ : m₁.status.Coupled := ht.of_tracked htracked₁
    refine ⟨htracked₁, fun hop => ?_, fun hop => ?_⟩
    · rw [step_compare hm₁ hop, htracked₁]
    · rw [step_jump hm₁ hop, htracked₁, show t.tracked .jump = t.tracked .compare from ht .compare,
        ← hverdict, ← hbefore.verdict, Machine.verdict, htracked₁]
      cases t.tracked .compare <;> rfl

/-- A program that compares 3 with 5, does nothing for an instruction and jumps. -/
def threeAndFive : Setup where
  registers := 2
  program := #[⟨.compare, 1, 2, 1, .key ⟨[(.binary, false)], 0⟩, 0⟩, ⟨.noop, 0, 0, 0, .none, 0⟩,
    ⟨.jump, 7, 8, 9, .none, 0⟩]
  initial := [(1, .ofInt 3), (2, .ofInt 5)]
  status := { useFlagCache := false }
  database := default

theorem jump_by_the_rules_of_compare_direct :
    let t := Status.applyAll [.set "Jump" false, .freeze, .set "Compare" true] { useFlagCache := false }
    let m₀ := ofSetup { threeAndFive with status := t }
    let sheet := m₀.bank.holder.outside
    let m := after (turn 1 sheet) (after (turn 0 sheet) m₀)
    t.tracked .compare = false ∧ ∃ i m₁, reaches 2 sheet m = some (i, m₁) ∧ step 2 i m₁ = .ok (.jump 7) m₁ := by
  intro t m₀ sheet m
  obtain ⟨-, -, hruns⟩ :=
    jump_by_the_rules_of_compare threeAndFive [.set "Jump" false, .freeze, .set "Compare" true] false
  have hw : Weighing { threeAndFive with status := t } .lt m := by
    have hturns := (Weighing.start (s := { threeAndFive with status := t })).turn 0 sheet |>.turn 1 sheet
    rwa [show judged 1 sheet (after (turn 0 sheet) m₀) (judged 0 sheet m₀ .eq) = .lt by decide +kernel] at hturns
  have hreach : (reaches 2 sheet m).map (·.1) = some ⟨.jump, 7, 8, 9, .none, 0⟩ := by decide +kernel
  obtain ⟨⟨i, m₁⟩, hsome, hi⟩ := Option.map_eq_some_iff.mp hreach
  have hi : i = ⟨.jump, 7, 8, 9, .none, 0⟩ := hi
  obtain ⟨-, -, hjump⟩ := hruns .lt m hw 2 sheet i m₁ hsome
  refine ⟨by decide +kernel, i, m₁, hsome, ?_⟩
  rw [hjump (by rw [hi]), if_neg (by decide +kernel), hi]
  rfl

end QueryMachine.Machine
