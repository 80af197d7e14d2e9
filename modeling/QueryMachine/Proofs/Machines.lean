import Mathlib
import QueryMachine.Machine.Basic
import QueryMachine.Proofs.Cells

/-!
Machines: rules about their registers, and their cursors.
-/

namespace QueryMachine

namespace Machine

variable {α : Type} {m : Machine} {i : Int} {c : Cursor}

def withBank (m : Machine) (b : Bank) : Machine := { m with bank := b }

@[simp] theorem withBank_self (m : Machine) : m.withBank m.bank = m := rfl

@[simp] theorem bank_withBank (m : Machine) (b : Bank) : (m.withBank b).bank = b := rfl

@[simp] theorem withBank_withBank (m : Machine) (b b' : Bank) :
    (m.withBank b).withBank b' = m.withBank b' := rfl

theorem lift_of_ok {x : BankM α} {a : α} {b : Bank} (h : x m.bank = .ok a b) :
    (liftM x : MachineM α) m = .ok a (m.withBank b) := by
  show onBank x m = _
  simp only [onBank, h]
  rfl

theorem lift_of_error {x : BankM α} {e : Fault} {b : Bank} (h : x m.bank = .error e b) :
    (liftM x : MachineM α) m = .error e (m.withBank b) := by
  show onBank x m = _
  simp only [onBank, h]
  rfl

theorem lift_eq_ok {x : BankM α} {a : α} {m₁ : Machine} (h : (liftM x : MachineM α) m = .ok a m₁) :
    ∃ b, x m.bank = .ok a b ∧ m₁ = m.withBank b := by
  cases hx : x m.bank with
  | ok c b =>
    rw [lift_of_ok hx] at h
    cases h
    exact ⟨b, rfl, rfl⟩
  | error e b =>
    rw [lift_of_error hx] at h
    cases h

theorem lift_bind {β : Type} (x : BankM α) (f : α → BankM β) :
    (liftM (x >>= f) : MachineM β) = liftM x >>= fun a => liftM (f a) := by
  funext m
  cases hx : x m.bank with
  | ok a b =>
    have hrun := bind_of_ok (f := f) hx
    rw [bind_of_ok (lift_of_ok hx)]
    cases hf : f a b with
    | ok c b₁ => rw [lift_of_ok (hrun.trans hf), lift_of_ok (m := m.withBank b) hf, withBank_withBank]
    | error e b₁ =>
      rw [lift_of_error (hrun.trans hf), lift_of_error (m := m.withBank b) hf, withBank_withBank]
  | error e b => rw [bind_of_error (lift_of_error hx), lift_of_error (bind_of_error hx)]

theorem lift_pure (a : α) : (liftM (pure a : BankM α) : MachineM α) = pure a := rfl

theorem lift_check (p : Bool) : (liftM (check p : BankM Unit) : MachineM Unit) = check p := by
  cases p <;> rfl

theorem lift_expect (e : Fault) (o : Option α) :
    (liftM (expect e o : BankM α) : MachineM α) = expect e o := by
  cases o <;> rfl

theorem lift_of_read {x : BankM α} {a : α} (h : x m.bank = .ok a m.bank) :
    (liftM x : MachineM α) m = .ok a m := lift_of_ok h

/-- The machine has an open cursor with this number. -/
def Opens (m : Machine) (i : Int) (c : Cursor) : Prop := 0 ≤ i ∧ m.cursors[i.toNat]? = some (some c)

theorem Opens.cursor_run (h : m.Opens i c) : cursor i m = .ok c m := by
  simp only [cursor, cursor?, h.1, if_true, bind, EStateM.bind, get_run, pure_run, h.2]
  rfl

def withCursor (m : Machine) (i : Int) (c : Cursor) : Machine :=
  { m with cursors := m.cursors.setIfInBounds i.toNat (some c) }

theorem Opens.setCursor_run (h : m.Opens i c) (d : Cursor) :
    setCursor i (some d) m = .ok () (m.withCursor i d) := by
  simp only [setCursor, modify_run, h.1, if_true]
  rfl

theorem Opens.withCursor (h : m.Opens i c) (d : Cursor) : (m.withCursor i d).Opens i d := by
  refine ⟨h.1, ?_⟩
  have hlt : i.toNat < m.cursors.size := (Array.getElem?_eq_some_iff.mp h.2).1
  simp [Machine.withCursor, hlt]

end Machine

end QueryMachine
