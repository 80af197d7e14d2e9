import Mathlib
import QueryMachine.Proofs.Sides
import QueryMachine.Proofs.Storing

/-!
Binding parameters. After every sequence of requests there is a sheet that can be changed, so that a value is bound
without failure where the parameter is found and what is known about its marks is right. A parameter is cleared
before the last checks are made: a number below one that counts from the last parameter, and a parameter on which
the way the program works depends, are refused too late.
-/

namespace QueryMachine

namespace Machine

open Bank

/-! The sheet along runs. -/

section Sheets

variable {m m₁ : Machine} {pc : Int} {i : Instruction} {sheet : Option Sheet} {c : Course} {flow : Flow} {e : Fault}

/-- There is a sheet that can be changed: at the end of a run, and when a turn reveals the sheet that it goes on with. -/
def Course.Kept : Course → Machine → Prop
  | .ended _, m => m.bank.Kept
  | .going _ sheet, m => (m.revealed sheet).bank.Kept

theorem kept_revealed (h : m.bank.Kept) : (m.revealed m.bank.holder.current?).bank.Kept :=
  h.imp fun _ hs => hs.turned ⟨rfl, rfl, rfl⟩

theorem kept_concluded (h : m.bank.Kept) : (after (liftM (conclude i) : MachineM Unit) m).bank.Kept :=
  (((abiding_conclude i).lift : (abiding fun _ => True).Keeps _) m).bank.kept h

theorem settle_kept (h : m.bank.Kept) (hs : settle pc i flow m = .ok c m₁) : c.Kept m₁ := by
  rcases settle_eq_ok hs with ⟨code, rfl, rfl, rfl⟩ | ⟨m₂, hconclude, -⟩
  · exact h
  · have h₂ := kept_concluded (i := i) h
    rw [after_of_ok hconclude] at h₂
    cases flow with
    | leave code => cases hs; exact h
    | next => rw [settle_next_of hconclude] at hs; cases hs; exact kept_revealed h₂
    | jump target =>
      rw [settle_jump_of hconclude] at hs
      cases hs
      split <;> exact kept_revealed h₂
    | fail code => rw [settle_fail_of hconclude] at hs; cases hs; exact h₂

theorem kept_executed (pc : Int) (i : Instruction) (h : (m.revealed sheet).bank.Kept) :
    (after (execute pc i) (m.entered pc i sheet)).bank.Kept :=
  (abiding_execute pc i (m.entered pc i sheet)).bank.kept (by rwa [bank_entered])

theorem turn_kept (h : (m.revealed sheet).bank.Kept) (ht : turn pc sheet m = .ok c m₁) : c.Kept m₁ := by
  obtain ⟨i, flow, m₂, -, -, -, hx, hs⟩ := turn_eq_ok ht
  have h₂ := kept_executed pc i h
  rw [after_of_ok hx] at h₂
  exact settle_kept h₂ hs

theorem turn_kept_error (h : (m.revealed sheet).bank.Kept) (ht : turn pc sheet m = .error e m₁) : m₁.bank.Kept := by
  obtain rfl | ⟨i, -, hx⟩ := turn_eq_error ht
  · exact h
  · have h₂ := kept_executed pc i h
    obtain hx | ⟨flow, m₂, hx, hs⟩ := hx
    · rwa [after_of_error hx] at h₂
    · rw [after_of_ok hx] at h₂
      have h₃ := kept_concluded (i := i) h₂
      rwa [after_of_error (settle_eq_error hs)] at h₃

theorem loop_kept {fuel : Nat} (hh : c.Held m) (h : c.Kept m) (hfuel : m.budget < fuel) :
    (after (loop fuel c) m).bank.Kept := by
  -- The budget goes down in every turn, so that the loop never stops for want of fuel, where nothing is known of its sheet.
  refine after_loop (P := fun n c m => c.Held m ∧ c.Kept m ∧ m.budget < n) (fun hm ht => ?_)
    (fun hm ht => turn_kept_error hm.2.1 ht) (fun hm => absurd hm.2.2 (Nat.not_lt_zero _)) (fun hm => hm.2.1) ⟨hh, h, hfuel⟩
  obtain ⟨h₁, hbudget⟩ := turn_held hm.1 ht
  exact ⟨h₁, turn_kept hm.2.1 ht, by omega⟩

theorem run_kept (ho : m.bank.holder.Outside) (h : m.bank.Kept) : (after run m).bank.Kept := by
  have houtset : m.outset.Kept m.started := h.imp fun _ hs => hs.turned ⟨rfl, rfl, rfl⟩
  have hkept : (after (loop (m.budget + 1) m.outset) m.started).bank.Kept :=
    loop_kept (held_outset ho) houtset (Nat.lt_succ_self _)
  obtain ⟨_, m₁, hloop, hinside, hend⟩ | ⟨_, m₁, hloop, -, hend⟩ := run_cases ho
  · rw [after_of_ok hloop] at hkept
    rw [after_of_ok hend]
    exact hkept.imp fun _ hs => hs.turned ⟨rfl, rfl, rfl⟩
  · rw [after_of_error hloop] at hkept
    rwa [after_of_error hend]

theorem kept_forgotten (ho : m.bank.holder.Outside) (h : m.bank.Kept) : m.forgotten.bank.Kept :=
  h.elim fun _ hs => ⟨_, hs.blank_outside ho.1⟩

theorem reset_kept (ho : m.bank.holder.Outside) (h : m.bank.Kept) : (after reset m).bank.Kept := by
  rw [reset, after_bind_of_ok (forgetAllOutside_run ho.1)]
  have hhalt := ((oblivious_halt false).abiding : (abiding fun _ => True).Keeps (Machine.halt false)) m.forgotten
  exact hhalt.bank.kept (kept_forgotten ho h)

theorem bindText_kept (ho : m.bank.holder.Outside) (h : m.bank.Kept) (j : Int) (bytes : Bytes) :
    (after (bindText j bytes) m).bank.Kept := by
  have hforgotten := kept_forgotten ho h
  rw [bindText, after_bind_of_ok (forgetAllOutside_run ho.1), after_bind_of_ok get_run]
  split_ifs
  · exact hforgotten
  · exact hforgotten
  · refine (Abides.bank (P := fun _ => True) ?_).kept hforgotten
    exact Frame.Keeps.bind (F := abiding _) (abiding_modifyCellWith _ _).lift (fun _ => .pure _) m.forgotten

end Sheets

end Machine

namespace Request

open Machine Bank

theorem spans_kept : Spans ⟨fun m m' => m.bank.Kept → m'.bank.Kept, fun _ => id, fun h h' => h' ∘ h⟩ :=
  ⟨fun h => h.bank.kept, run_kept, reset_kept, fun j bytes ho h => bindText_kept ho h j bytes⟩

/-- After every sequence of requests there is a sheet that can be changed. -/
theorem kept_performAll (s : Setup) (qs : List Request) : (performAll qs (ofSetup s)).bank.Kept :=
  spans_kept.performAll (.inl ⟨rfl, rfl⟩) qs ⟨_, (keeps_ofCells _ s.useCache s.fresh).carry rfl rfl rfl rfl⟩

end Request

/-! What a rule on one cell does to the others. -/

namespace Bank

variable {α : Type} {b : Bank} {r : Nat}

/-- No cell is written but `r`. -/
def writing (r : Nat) : Frame Bank where
  rel b b' := ∀ j, j ≠ r → b'.cellAt j = b.cellAt j
  refl _ _ _ := rfl
  trans h h' j hj := (h' j hj).trans (h j hj)

@[grind ←]
theorem writing_withLedger (x : LedgerM α) : (writing r).Keeps (withLedger x) := by
  intro b j _
  rw [after, withLedger]
  cases x b.ledger <;> rfl

@[grind ←]
theorem writing_remember (s : Option Sheet) : (writing r).Keeps (remember s) := .modify fun _ _ _ => rfl

@[grind ←]
theorem writing_cell (j : Nat) : (writing r).Keeps (cell j) := Frame.Keeps.get.bind fun _ => .pure _

@[grind ←]
theorem writing_current : (writing r).Keeps current := (Frame.Keeps.get.bind fun _ => .pure _).bind fun _ => .expect _ _

@[grind ←]
theorem writing_modifyCell (r : Nat) (f : Cell → Cell) : (writing r).Keeps (modifyCell r f) := by
  intro b j hj
  rw [after_of_ok (modifyCell_run b r f)]
  exact cellAt_withCell_ne hj.symm _

@[grind ←]
theorem writing_flags (j : Nat) : (writing r).Keeps (flags j) := by grind [flags]

@[grind ←]
theorem writing_invalidate (j : Nat) : (writing r).Keeps (invalidate j) := by grind [invalidate, forgetFact]

@[grind ←]
theorem writing_setFlags (r : Nat) (f : Flags) : (writing r).Keeps (setFlags r f) := by
  refine Frame.Keeps.get.bind fun b => .ite (writing_current.bind fun s => .ite (.pure _) ?_) (writing_modifyCell r _)
  exact (writing_modifyCell r _).bind fun _ => by grind

@[grind ←]
theorem writing_release (r : Nat) : (writing r).Keeps (release r) := by
  grind [release, releaseExtern, clearExtern, clearStorage, isDynamic]

@[grind ←]
theorem writing_setInt (r : Nat) (n : Int) (constant : Bool) : (writing r).Keeps (setInt r n constant) := by
  grind [setInt]

@[grind ←]
theorem writing_setReal (r : Nat) (x : Number) (constant : Bool) : (writing r).Keeps (setReal r x constant) := by
  grind [setReal]

theorem writing_setInteger (r : Nat) (n : Int) : (writing r).Keeps (setInteger r n) := by
  grind [setInteger]

theorem writing_setDouble (r : Nat) {x : Double} (hx : x.isNaN = false) : (writing r).Keeps (setDouble r (.real x)) := by
  grind [setDouble, Number.isNaN]

/-- A cell that holds no value is not handed to a direct rule. -/
theorem Settled.writing_setNull (h : b.Settled r) (hn : (b.cellAt r).flags = .onlyNull) :
    (writing r).rel b (after (Bank.setNull r) b) := by
  obtain ⟨_, b₁, hrun, h₁, rfl, hc₁⟩ := h.flags
  obtain ⟨_, b₂, hrun₁, -, rfl, -⟩ := h₁.flags
  -- A direct rule is not bound to one cell; as there is no value to release, `setNull` does without it.
  have heq : Bank.setNull r b = (do discard (Bank.flags r); discard (Bank.flags r); retype r .onlyNull : BankM Unit) b := by
    rw [bind_of_ok (discard_of_ok hrun), bind_of_ok (discard_of_ok hrun₁), Bank.setNull, bind_of_ok hrun, bind_of_ok hrun₁,
      hc₁, hn]
    rfl
  have hframe : (writing r).Keeps (do discard (Bank.flags r); discard (Bank.flags r); retype r .onlyNull : BankM Unit) := by
    grind [retype]
  rw [after, heq]
  exact hframe b

/-- Something that is not true is known about the marks of a cell. -/
def Mistaken (r : Nat) (b : Bank) : Prop :=
  ∃ g ∈ b.holder.current?.bind fun s => (s.fact r).flags?, g ≠ (b.cellAt r).flags

instance : Decidable (Mistaken r b) := inferInstanceAs (Decidable (∃ g ∈ _, _))

theorem Kept.settled (h : b.Kept) (hr : r < b.cells.size) (hright : ¬ b.Mistaken r) : b.Settled r := by
  obtain ⟨s, hs⟩ := h
  refine ⟨hr, s, hs, fun g hg => ?_⟩
  by_contra hne
  exact hright ⟨g, by rw [hs.current]; exact hg, hne⟩

def clear (r : Nat) : BankM Unit := do
  release r
  setFlags r .onlyNull

theorem writing_clear (r : Nat) : (writing r).Keeps (clear r) := (writing_release r).bind fun _ => writing_setFlags r _

theorem abiding_clear (r : Nat) : abiding.Keeps (clear r) := (abiding_release r).bind fun _ => abiding_setFlags r _

theorem Settled.clear (h : b.Settled r) : Ends r (Bank.clear r) b fun _ c => c.flags = .onlyNull := by
  refine h.release.bind fun _ b' hb' _ => ?_
  obtain ⟨v, b'', hrun, hb'', hc⟩ := hb'.setFlags .onlyNull
  exact ⟨v, b'', hrun, hb'', hc ▸ rfl⟩

theorem Mistaken.clear_run (hk : b.Kept) (h : b.Mistaken r) : Bank.clear r b = .error (.assertion "") b := by
  obtain ⟨s, hs⟩ := hk
  obtain ⟨g, hg, hne⟩ := h
  rw [hs.current] at hg
  exact bind_of_error (bind_of_error (bind_of_error (bind_of_error (hs.flags_run_of_false hg hne))))

end Bank

inductive Datum
  | null
  | int (n : Int64)
  | real (x : Double)

namespace Datum

/-- What is seen of the value in a cell. -/
def view : Datum → View
  | null => .null
  | int n => .ofInt n.toInt
  | real x => .ofDouble x

def bind (i : Int) : Datum → MachineM Unit
  | null => Machine.bindNull i
  | int n => Machine.bindInt i n.toInt
  | real x => Machine.bindReal i x

/-- How the value gets into a cell that has been cleared. -/
def store (r : Nat) : Datum → BankM Unit
  | null => pure ()
  | int n => Bank.setInteger r n.toInt
  | real x => Bank.setDouble r (.real x)

open Bank

variable {b : Bank} {r : Nat}

theorem fitsWord_toInt (n : Int64) : fitsWord n.toInt = true := by
  have h := fitsWord_wordToInt n.toUInt64
  rwa [wordToInt, UInt64.toInt64, Int64.toUInt64] at h

theorem abiding_store (r : Nat) (v : Datum) : abiding.Keeps (v.store r) := by
  cases v with
  | null => exact .pure _
  | int n => exact abiding_setInteger r _ _
  | real x => exact abiding_setDouble r _

theorem store_run (hb : b.Settled r) (hn : (b.cellAt r).flags = .onlyNull) (v : Datum) :
    ∃ b', v.store r b = .ok () b' ∧ (b'.cellAt r).view = v.view ∧ (writing r).rel b b' := by
  have hframe : (writing r).rel b (after (v.store r) b) := by
    cases v with
    | null => exact (writing r).refl b
    | int n => exact writing_setInteger r _ b
    | real x =>
      cases hx : x.isNaN with
      | false => exact writing_setDouble r hx b
      | true =>
        have hnull : store r (real x) = Bank.setNull r := if_pos hx
        rw [hnull]
        exact hb.writing_setNull hn
  have hends : Ends r (v.store r) b fun _ c => c.view = v.view := by
    cases v with
    | null => exact hb.pure (by simp only [Content.view, hn]; rfl)
    | int n => exact hb.setInteger (fitsWord_toInt n)
    | real x => exact hb.setDouble x
  obtain ⟨_, b', hrun, -, hview⟩ := hends
  rw [after_of_ok hrun] at hframe
  exact ⟨b', hrun, hview, hframe⟩

end Datum

namespace Machine

open Bank

variable {m m' : Machine} {i : Int} {k : Nat} {e : Fault}

/-- The program is in a run, or it has ended and has not been reset. -/
def isBusy (m : Machine) : Bool := m.halted || 0 ≤ m.pc

/-- The cell of a parameter, counted from zero. -/
def parameterAt (m : Machine) (k : Nat) : Cell := m.bank.cellAt (m.bank.reach + k)

/-- A parameter shows this value, and the others are as they were. -/
structure Rebound (k : Nat) (v : View) (m m' : Machine) : Prop where
  count : m'.variableCount = m.variableCount
  shown : (m'.parameterAt k).view = v
  others : ∀ j, j ≠ k → m'.parameterAt j = m.parameterAt j

theorem Rebound.of_bank {b : Bank} {v : View} (hlast : m.bank.Lasts b)
    (hwrite : (writing (m.bank.reach + k)).rel m.bank b) (hview : (b.cellAt (m.bank.reach + k)).view = v) :
    m.Rebound k v (m.withBank b) where
  count := by rw [variableCount, variableCount, bank_withBank, hlast.size, hlast.reach]
  shown := by rwa [parameterAt, bank_withBank, hlast.reach]
  others j hj := by
    rw [parameterAt, parameterAt, bank_withBank, hlast.reach]
    exact hwrite _ (by omega)

theorem unbind_of_busy (i : Int) (h : m.isBusy = true) : unbind i m = .error .busy m := by
  have hbusy : (m.halted || decide (0 ≤ m.pc)) = true := h
  rw [unbind, bind_of_ok get_run, if_pos hbusy]
  rfl

theorem unbind_of_ready (h : m.isBusy = false) :
    unbind i m = (do
      liftM (clear (← parameter (i - 1)))
      if i < 1 then throw .badValue
      if m.expiring.getLsbD (i - 1).toNat then throw .expiring : MachineM Unit) m := by
  have hready : ¬ (m.halted || decide (0 ≤ m.pc)) = true := by rw [← isBusy, h]; exact Bool.false_ne_true
  rw [unbind, bind_of_ok get_run, if_neg hready]
  simp only [clear, lift_bind, bind_assoc]

theorem unbind_of_missing (h : m.isBusy = false) (hk : wrapIndex? m.variableCount (i - 1) = none) :
    unbind i m = .error .unknownVariable m := by
  have hmissing : parameter (i - 1) m.bank = .error .unknownVariable m.bank := by
    rw [parameter, bind_of_ok get_run, ← variableCount, hk]
    rfl
  rw [unbind_of_ready h, bind_of_error (lift_of_error hmissing)]
  rfl

theorem parameter_of_found (hk : wrapIndex? m.variableCount (i - 1) = some k) :
    parameter (i - 1) m.bank = .ok (m.bank.reach + k) m.bank := by
  rw [parameter, bind_of_ok get_run, ← variableCount, hk]
  rfl

theorem unbind_of_mistaken (h : m.isBusy = false) (hk : wrapIndex? m.variableCount (i - 1) = some k)
    (hkept : m.bank.Kept) (hwrong : m.bank.Mistaken (m.bank.reach + k)) :
    unbind i m = .error (.assertion "") m := by
  rw [unbind_of_ready h, bind_of_ok (lift_of_read (parameter_of_found hk)),
    bind_of_error (lift_of_error (hwrong.clear_run hkept))]
  rfl

/-- A parameter that is found is cleared first; only then is it seen whether its number and its use allow that. -/
theorem unbind_of_right (h : m.isBusy = false) (hk : wrapIndex? m.variableCount (i - 1) = some k)
    (hkept : m.bank.Kept) (hright : ¬ m.bank.Mistaken (m.bank.reach + k)) :
    ∃ b, b.Settled (m.bank.reach + k) ∧ (b.cellAt (m.bank.reach + k)).flags = .onlyNull ∧
      (writing (m.bank.reach + k)).rel m.bank b ∧ m.bank.Lasts b ∧
      unbind i m = (do
        if i < 1 then throw .badValue
        if m.expiring.getLsbD (i - 1).toNat then throw .expiring : MachineM Unit) (m.withBank b) := by
  have hlt := wrapIndex?_lt hk
  have hr : m.bank.reach + k < m.bank.cells.size := by rw [variableCount] at hlt; omega
  obtain ⟨_, b, hrun, hb, hnull⟩ := (hkept.settled hr hright).clear
  have hwrite := writing_clear (m.bank.reach + k) m.bank
  have hlast := (abiding_clear (m.bank.reach + k) m.bank).toLasts
  rw [after_of_ok hrun] at hwrite hlast
  refine ⟨b, hb, hnull, hwrite, hlast, ?_⟩
  rw [unbind_of_ready h, bind_of_ok (lift_of_read (parameter_of_found hk)), bind_of_ok (lift_of_ok hrun)]

end Machine

namespace Datum

open Machine Bank

variable {m m' : Machine} {i : Int} {k : Nat} {e : Fault}

theorem bind_of_refused (v : Datum) (h : unbind i m = .error e m') : v.bind i m = .error e m' := by
  cases v with
  | null => exact h
  | int n => exact bind_of_error h
  | real x => exact bind_of_error h

theorem bind_of_cleared (v : Datum) (h : unbind i m = .ok () m') (hk : wrapIndex? m'.variableCount (i - 1) = some k) :
    v.bind i m = (liftM (v.store (m'.bank.reach + k)) : MachineM Unit) m' := by
  have hfound := lift_of_read (parameter_of_found hk)
  cases v with
  | null => exact h
  | int n => exact (bind_of_ok h).trans (bind_of_ok hfound)
  | real x => exact (bind_of_ok h).trans (bind_of_ok hfound)

theorem wrapIndex?_eq_none {n : Nat} (h : i ≤ -n ∨ n < i) : wrapIndex? n (i - 1) = none := by
  grind [wrapIndex?]

theorem wrapIndex?_eq_some {n : Nat} (hk : k < n) (h : i = k + 1 ∨ i = k + 1 - n) : wrapIndex? n (i - 1) = some k := by
  grind [wrapIndex?]

/-- A program with two parameters; the way it works depends on the second. -/
def twoParameters : Setup where
  registers := 1
  parameters := 2
  expiring := 2
  program := #[⟨.halt, 0, 0, 0, .none, 0⟩]
  status := { useFlagCache := true }
  database := default

/-- Both parameters have a value. -/
def twoValues : List Request := [.call (.bindText 2 [97]), .call (.bindInt 1 7)]

end Datum

end QueryMachine
