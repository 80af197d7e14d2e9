import Mathlib
import QueryMachine.Machine.Statement
import QueryMachine.Proofs.Abiding
import QueryMachine.Proofs.Turns

/-!
The calls that a statement answers. Of them only runs step and finish aggregates and compare vectors.
-/

namespace QueryMachine

inductive Call
  | run
  | row
  | reset
  | bindNull (i : Int)
  | bindInt (i n : Int)
  | bindReal (i : Int) (x : Double)
  | bindText (i : Int) (bytes : Bytes)
  deriving Repr, DecidableEq, Inhabited

inductive Answer
  | none
  | code (n : Nat)
  | row (values : List Value)
  deriving Repr, DecidableEq, Inhabited

namespace Call

def perform : Call → MachineM Answer
  | run => return .code (← Machine.run)
  | row => return .row (← Machine.row)
  | reset => do Machine.reset; return .none
  | bindNull i => do Machine.bindNull i; return .none
  | bindInt i n => do Machine.bindInt i n; return .none
  | bindReal i x => do Machine.bindReal i x; return .none
  | bindText i bytes => return .code (← Machine.bindText i bytes)

end Call

namespace Machine

variable {P : Facet → Prop}

theorem resting_start : resting.Keeps start := by
  refine Frame.Keeps.get.bind fun _ => (resting_lift _).bind fun _ => (resting_lift _).bind fun _ => ?_
  exact .bind (.modify fun _ => ⟨rfl, rfl, rfl, rfl⟩) fun _ => .pure _

theorem resting_reset : resting.Keeps reset :=
  (resting_lift _).bind fun _ => (resting_of_oblivious (oblivious_halt false)).bind fun _ =>
    .modify fun _ => ⟨rfl, rfl, rfl, rfl⟩

theorem resting_bindText (i : Int) (bytes : Bytes) : resting.Keeps (bindText i bytes) := by
  refine (resting_lift _).bind fun _ => Frame.Keeps.get.bind fun m => .ite (.pure _) (.ite (.pure _) ?_)
  exact (resting_lift _).bind fun _ => .pure _

theorem abiding_column (i : Int) : (abiding P).Keeps (column i) :=
  Frame.Keeps.get.bind fun _ => (Bank.abiding_register _).lift

theorem abiding_row : (abiding P).Keeps row :=
  Frame.Keeps.get.bind fun _ => .mapM fun i => (abiding_column i).bind fun r => (Bank.abiding_value r).lift

theorem abiding_unbind (i : Int) : (abiding P).Keeps (unbind i) := by
  refine Frame.Keeps.get.bind fun m => .ite ((Frame.Keeps.throw _).bind fun _ => ?_) ?_ <;>
    exact (Bank.abiding_parameter _).lift.bind fun r => (Bank.abiding_release r).lift.bind fun _ =>
      (Bank.abiding_setFlags r _).lift.bind fun _ => .ite ((Frame.Keeps.throw _).bind fun _ =>
        .ite (.throw _) (.pure _)) (.ite (.throw _) (.pure _))

theorem abiding_bindInt (i n : Int) : (abiding P).Keeps (bindInt i n) :=
  (abiding_unbind i).bind fun _ => (Bank.abiding_parameter _).lift.bind fun r =>
    (Bank.abiding_setInteger r n _).lift

theorem abiding_bindReal (i : Int) (x : Double) : (abiding P).Keeps (bindReal i x) :=
  (abiding_unbind i).bind fun _ => (Bank.abiding_parameter _).lift.bind fun r =>
    (Bank.abiding_setDouble r _).lift

end Machine

/-! What holds along turns and whatever comes between them. -/

/-- What holds of a machine holds of it after every turn, and after everything that leaves the contexts, the last
comparisons and the choice of the rules alone. -/
structure Machine.Persists (I : Machine → Prop) : Prop where
  aside {α : Type} {x : MachineM α} {m : Machine} : resting.Keeps x → I m → I (after x m)
  turn {m : Machine} (pc : Int) (sheet : Option Sheet) : I m → I (after (turn pc sheet) m)

namespace Call

open Machine

theorem resting_perform {c : Call} (hc : c ≠ .run) : resting.Keeps c.perform := by
  cases c with
  | run => exact absurd rfl hc
  | row => exact (resting_of_abiding abiding_row).bind fun _ => .pure _
  | reset => exact resting_reset.bind fun _ => .pure _
  | bindNull i => exact (resting_of_abiding (abiding_unbind i)).bind fun _ => .pure _
  | bindInt i n => exact (resting_of_abiding (abiding_bindInt i n)).bind fun _ => .pure _
  | bindReal i x => exact (resting_of_abiding (abiding_bindReal i x)).bind fun _ => .pure _
  | bindText i bytes => exact (resting_bindText i bytes).bind fun _ => .pure _

end Call

theorem Machine.after_loop {P : Nat → Course → Machine → Prop} {I : Machine → Prop}
    (hturn : ∀ {n pc sheet m c m₁}, P (n + 1) (.going pc sheet) m → turn pc sheet m = .ok c m₁ → P n c m₁)
    (hfail : ∀ {n pc sheet m e m₁}, P (n + 1) (.going pc sheet) m → turn pc sheet m = .error e m₁ → I m₁)
    (hspent : ∀ {pc sheet m}, P 0 (.going pc sheet) m → I m) (hended : ∀ {n code m}, P n (.ended code) m → I m)
    {n : Nat} {c : Course} {m : Machine} (h : P n c m) : I (after (loop n c) m) := by
  obtain ⟨hok, herror⟩ := loop_induction hturn hfail hspent h
  cases hl : loop n c m with
  | ok code m₁ => rw [after_of_ok hl]; exact (hok code m₁ hl).elim fun _ => hended
  | error e m₁ => rw [after_of_error hl]; exact herror e m₁ hl

namespace Machine.Persists

variable {I : Machine → Prop} {m : Machine}

theorem loop (hI : Persists I) (h : I m) (fuel : Nat) (c : Course) : I (after (loop fuel c) m) := by
  refine after_loop (P := fun _ _ => I) (fun hm ht => ?_) (fun hm ht => ?_) id id (n := fuel) (c := c) h
  · rw [← after_of_ok ht]
    exact hI.turn _ _ hm
  · rw [← after_of_error ht]
    exact hI.turn _ _ hm

theorem run (hI : Persists I) (h : I m) : I (after run m) := by
  have hstart := hI.aside resting_start h
  cases hs₁ : start m with
  | error e m₁ =>
    rw [after_of_error hs₁] at hstart
    rwa [after_of_error (show Machine.run m = .error e m₁ from bind_of_error hs₁)]
  | ok c m₁ =>
    rw [after_of_ok hs₁] at hstart
    have hloop := hI.loop hstart (m₁.budget + 1) c
    have hrun : Machine.run m = (do
        let code ← Machine.loop (m₁.budget + 1) c
        Bank.prepareReturn
        return code : MachineM Nat) m₁ := by
      rw [Machine.run, bind_of_ok hs₁, bind_of_ok get_run]
    rw [after, hrun]
    cases hs₂ : Machine.loop (m₁.budget + 1) c m₁ with
    | error e m₂ =>
      rw [after_of_error hs₂] at hloop
      rwa [bind_of_error hs₂]
    | ok code m₂ =>
      rw [after_of_ok hs₂] at hloop
      rw [bind_of_ok hs₂]
      exact hI.aside ((resting_lift Bank.prepareReturn).bind fun _ => .pure code) hloop

/-- It holds after every call, whether it succeeds or not. -/
theorem call (hI : Persists I) (h : I m) (c : Call) : I (after c.perform m) := by
  by_cases hc : c = .run
  · subst hc
    have hsame : after Call.run.perform m = after Machine.run m := by
      cases h : Machine.run m with
      | ok code m' => rw [after_of_ok h]; exact after_bind_of_ok h
      | error e m' => rw [after_of_error h]; exact after_of_error (bind_of_error h)
    exact hsame ▸ hI.run h
  · exact hI.aside (Call.resting_perform hc) h

end Machine.Persists

end QueryMachine
