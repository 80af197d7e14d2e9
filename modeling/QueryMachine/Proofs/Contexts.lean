import Mathlib
import QueryMachine.Machine.Statement
import QueryMachine.Proofs.Frames

/-!
What few instructions of a machine touch: the contexts of aggregates, and how the last two vectors compared. No
instruction touches the choice between the tracked and the direct rules.
-/

namespace QueryMachine

open Bank

namespace Machine

variable {α : Type}

/-- The rule leaves the contexts of aggregates alone, and the choice of the rules. -/
def Sparing (x : MachineM α) : Prop :=
  ∀ m, (after x m).contexts = m.contexts ∧ (after x m).status.tracked = m.status.tracked

/-- Neither the contexts change, nor how the last two vectors compared, nor the choice of the rules. -/
structure Rests (m m' : Machine) : Prop where
  contexts : m'.contexts = m.contexts
  tracked : m'.status.tracked = m.status.tracked
  order : m'.order = m.order
  directOrder : m'.directOrder = m.directOrder

def resting : Frame Machine where
  rel := Rests
  refl _ := ⟨rfl, rfl, rfl, rfl⟩
  trans h h' :=
    ⟨h'.contexts.trans h.contexts, h'.tracked.trans h.tracked, h'.order.trans h.order,
      h'.directOrder.trans h.directOrder⟩

theorem Sparing.of_resting {x : MachineM α} (hx : resting.Keeps x) : Sparing x :=
  fun m => ⟨(hx m).contexts, (hx m).tracked⟩

theorem resting_lift (x : BankM α) : resting.Keeps (liftM x : MachineM α) := by
  intro m
  cases h : x m.bank with
  | ok a b => rw [after_of_ok (lift_of_ok h)]; exact ⟨rfl, rfl, rfl, rfl⟩
  | error e b => rw [after_of_error (lift_of_error h)]; exact ⟨rfl, rfl, rfl, rfl⟩

/-- What a machine hides from the rules on cells. -/
def own (m : Machine) : Cover :=
  { holder := m.bank.holder
    ledger := m.bank.ledger
    status := m.status
    contexts := m.contexts
    trace := m.trace
    shown := m.shown
    budget := m.budget
    registers := m.registers
    width := m.width
    result := m.result
    hasRow := m.hasRow
    order := m.order
    directOrder := m.directOrder }

theorem after_oblivious {x : MachineM α} (hx : Oblivious x) (m : Machine) :
    after x m = Veiled.veil (own m) (after x m) ∧ Veiled.build (after x m) = Veiled.build m := by
  have hrun := hx (own m) m
  have hself : Veiled.veil (own m) m = m := rfl
  rw [hself] at hrun
  cases h : x m with
  | ok a m' =>
    rw [h] at hrun
    rw [after_of_ok h]
    exact ⟨by injection hrun.1, hrun.2⟩
  | error e m' =>
    rw [h] at hrun
    rw [after_of_error h]
    exact ⟨by injection hrun.1, hrun.2⟩

theorem resting_of_oblivious {x : MachineM α} (hx : Oblivious x) : resting.Keeps x := by
  intro m
  rw [(after_oblivious hx m).1]
  exact ⟨rfl, rfl, rfl, rfl⟩

end Machine

end QueryMachine
