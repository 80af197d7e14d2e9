import Mathlib
import QueryMachine.Machine.Run
import QueryMachine.Proofs.Machines

/-!
Turns: a turn fetches an instruction, enters it into the trace, makes ready for it, executes it and
settles where the run stands.
-/

namespace QueryMachine.Machine

variable {m m₁ : Machine} {i : Instruction} {pc : Int} {sheet : Option Sheet}

/-- The machine at the start of a turn that goes on with a sheet. -/
def revealed (m : Machine) (sheet : Option Sheet) : Machine :=
  m.withBank { m.bank with holder := { m.bank.holder with inside := some sheet } }

theorem reveal_run (m : Machine) (sheet : Option Sheet) :
    (liftM (Bank.reveal sheet) : MachineM Unit) m = .ok () (m.revealed sheet) := rfl

theorem choose_of_tracked {α : Type} {f : Family} {x y : MachineM α} (h : m.status.tracked f = true) :
    choose f x y m = x m := by
  rw [choose, bind_of_ok get_run, if_pos h]

theorem fetch_eq_ok (h : fetch pc m = .ok i m₁) : m₁ = m ∧ i ∈ m.program := by
  obtain ⟨_, _, hget, h⟩ := bind_eq_ok h
  cases hget
  obtain ⟨k, m₂, hk, h⟩ := bind_eq_ok h
  cases h
  cases hw : wrapIndex? m.program.size pc with
  | none =>
    rw [hw] at hk
    cases hk
  | some j =>
    rw [hw] at hk
    cases hk
    have hlt : k < m.program.size := wrapIndex?_lt hw
    rw [Array.getD_eq_getD_getElem?, Array.getElem?_eq_getElem hlt]
    exact ⟨rfl, Array.getElem_mem hlt⟩

theorem fetch_cases (pc : Int) (m : Machine) :
    (∃ i, fetch pc m = .ok i m) ∨ fetch pc m = .error .outOfRange m := by
  simp only [fetch, bind_of_ok get_run]
  cases wrapIndex? m.program.size pc with
  | none => exact .inr rfl
  | some k => exact .inl ⟨_, rfl⟩

theorem fetch_congr (hp : m₁.program = m.program) (h : fetch pc m = .ok i m) :
    fetch pc m₁ = .ok i m₁ := by
  simp only [fetch, bind_of_ok get_run] at h ⊢
  rw [hp]
  cases hw : wrapIndex? m.program.size pc with
  | none =>
    rw [hw] at h
    cases h
  | some j =>
    rw [hw] at h
    cases h
    rfl

/-- Makes ready for an instruction and executes it. -/
def execute (pc : Int) (i : Instruction) : MachineM Flow := do
  prepare i
  step pc i

def settle (pc : Int) (i : Instruction) : Flow → MachineM Course
  | .leave code => return .ended code
  | .next => do
    conclude i
    return .going (pc + 1) (← Bank.current?)
  | .jump target => do
    conclude i
    let sheet ← Bank.current?
    if target ≤ pc then Bank.hide
    return .going target sheet
  | .fail code => do
    conclude i
    return .ended code

/-- The machine between two turns, when its knowledge is hidden. -/
def hidden (m : Machine) : Machine :=
  m.withBank { m.bank with holder := { m.bank.holder with inside := none } }

theorem settle_next_of (h : (liftM (conclude i) : MachineM Unit) m = .ok () m₁) :
    settle pc i .next m = .ok (.going (pc + 1) m₁.bank.holder.current?) m₁ := by
  rw [settle, bind_of_ok h]
  rfl

theorem settle_jump_of (h : (liftM (conclude i) : MachineM Unit) m = .ok () m₁) (target : Int) :
    settle pc i (.jump target) m =
      .ok (.going target m₁.bank.holder.current?) (if target ≤ pc then m₁.hidden else m₁) := by
  have hcurrent : (liftM Bank.current? : MachineM (Option Sheet)) m₁ = .ok m₁.bank.holder.current? m₁ := rfl
  rw [settle, bind_of_ok h, bind_of_ok hcurrent]
  split <;> rfl

theorem settle_fail_of (h : (liftM (conclude i) : MachineM Unit) m = .ok () m₁) (code : Nat) :
    settle pc i (.fail code) m = .ok (.ended code) m₁ := by
  rw [settle, bind_of_ok h]
  rfl

theorem settle_eq_ok {flow : Flow} {c : Course} (h : settle pc i flow m = .ok c m₁) :
    (∃ code, flow = .leave code ∧ c = .ended code ∧ m₁ = m) ∨
      ∃ m₂, (liftM (conclude i) : MachineM Unit) m = .ok () m₂ ∧ settle pc i flow m = .ok c m₁ := by
  cases flow with
  | leave code =>
    cases h
    exact .inl ⟨code, rfl, rfl, rfl⟩
  | next | jump _ | fail _ =>
    obtain ⟨_, m₂, hconclude, _⟩ := bind_eq_ok h
    exact .inr ⟨m₂, hconclude, h⟩

/-- The machine that has entered an instruction and is about to execute it. -/
def entered (m : Machine) (pc : Int) (i : Instruction) (sheet : Option Sheet) : Machine :=
  { (m.revealed sheet).enterTrace pc i.op with budget := m.budget - 1 }

/-- The trace in which the changes of the last instruction are entered, and what was shown then. -/
def settledTrace (trace : List TraceEntry) (shown now : List View) : List TraceEntry × List View :=
  match trace with
  | [] => ([], now)
  | last :: rest =>
    if last.op = .halt then (trace, shown)
    else ({ last with changes := differences shown now } :: rest, now)

theorem settleTrace_eq (m : Machine) :
    m.settleTrace = { m with
      trace := (settledTrace m.trace m.shown m.views).1
      shown := (settledTrace m.trace m.shown m.views).2 } := by
  unfold settleTrace settledTrace
  cases ht : m.trace with
  | nil => rfl
  | cons last rest =>
    by_cases hlast : last.op = .halt
    · simp only [hlast, if_true, ← ht]
    · simp only [hlast, if_false]

theorem bank_entered (m : Machine) (pc : Int) (i : Instruction) (sheet : Option Sheet) :
    (m.entered pc i sheet).bank = (m.revealed sheet).bank := by
  show (m.revealed sheet).settleTrace.bank = _
  rw [settleTrace_eq]

theorem turn_run (hi : fetch pc m = .ok i m) (hb : m.budget ≠ 0) :
    turn pc sheet m = (execute pc i >>= settle pc i) (m.entered pc i sheet) := by
  have hbudget : (m.revealed sheet).budget ≠ 0 := hb
  have hfetch : fetch pc (m.revealed sheet) = .ok i (m.revealed sheet) := fetch_congr (m := m) rfl hi
  simp only [turn, bind_of_ok (reveal_run _ _), bind_of_ok hfetch, bind_of_ok get_run, if_neg hbudget,
    execute, bind_assoc]
  refine congrFun (congrArg _ (funext fun _ => congrArg _ (funext fun _ => congrArg _ (funext fun flow => ?_)))) _
  cases flow <;> rfl

theorem turn_eq_ok {c : Course} (h : turn pc sheet m = .ok c m₁) :
    ∃ i flow m₂, fetch pc m = .ok i m ∧ m.budget ≠ 0 ∧ i ∈ m.program ∧
      execute pc i (m.entered pc i sheet) = .ok flow m₂ ∧ settle pc i flow m₂ = .ok c m₁ := by
  have hrun := h
  simp only [turn, bind_of_ok (reveal_run _ _)] at hrun
  obtain ⟨i, m₂, hfetch, hrun⟩ := bind_eq_ok hrun
  obtain ⟨rfl, hmem⟩ := fetch_eq_ok hfetch
  have hi : fetch pc m = .ok i m := fetch_congr (m := m.revealed sheet) rfl hfetch
  have hb : m.budget ≠ 0 := by
    intro hb
    rw [bind_of_ok get_run, if_pos (show (m.revealed sheet).budget = 0 from hb)] at hrun
    obtain ⟨_, _, hthrow, _⟩ := bind_eq_ok hrun
    cases hthrow
  rw [turn_run hi hb] at h
  obtain ⟨flow, m₂, hx, hs⟩ := bind_eq_ok h
  exact ⟨i, flow, m₂, hi, hb, hmem, hx, hs⟩

/-- A turn gives up before it enters an instruction, or while it executes or settles it. -/
theorem turn_eq_error {e : Fault} (h : turn pc sheet m = .error e m₁) :
    m₁ = m.revealed sheet ∨ ∃ i, fetch pc m = .ok i m ∧
      (execute pc i (m.entered pc i sheet) = .error e m₁ ∨
        ∃ flow m₂, execute pc i (m.entered pc i sheet) = .ok flow m₂ ∧ settle pc i flow m₂ = .error e m₁) := by
  rcases fetch_cases pc (m.revealed sheet) with ⟨i, hf⟩ | hf
  · by_cases hb : m.budget = 0
    · rw [turn, bind_of_ok (reveal_run _ _), bind_of_ok hf, bind_of_ok get_run,
        if_pos (show (m.revealed sheet).budget = 0 from hb)] at h
      cases h
      exact .inl rfl
    · have hi : fetch pc m = .ok i m := fetch_congr (m := m.revealed sheet) rfl hf
      rw [turn_run hi hb] at h
      exact .inr ⟨i, hi, bind_eq_error h⟩
  · rw [turn, bind_of_ok (reveal_run _ _), bind_of_error hf] at h
    cases h
    exact .inl rfl

/-! The two ends of a run. -/

/-- What holds along a run: `P n` where it stands with `n` turns left to it, and `Q` where it fails. -/
theorem loop_induction {P : Nat → Course → Machine → Prop} {Q : Machine → Prop}
    (hturn : ∀ {n pc sheet m c m₁}, P (n + 1) (.going pc sheet) m → turn pc sheet m = .ok c m₁ → P n c m₁)
    (hfail : ∀ {n pc sheet m e m₁}, P (n + 1) (.going pc sheet) m → turn pc sheet m = .error e m₁ → Q m₁)
    (hspent : ∀ {pc sheet m}, P 0 (.going pc sheet) m → Q m) {n : Nat} {c : Course} {m : Machine} (h : P n c m) :
    (∀ code m₁, loop n c m = .ok code m₁ → ∃ k, P k (.ended code) m₁) ∧ ∀ e m₁, loop n c m = .error e m₁ → Q m₁ := by
  induction n generalizing c m with
  | zero =>
    cases c with
    | ended code => exact ⟨fun _ _ hl => by cases hl; exact ⟨0, h⟩, fun _ _ hl => by cases hl⟩
    | going pc sheet => exact ⟨fun _ _ hl => (by cases hl), fun _ _ hl => by cases hl; exact hspent h⟩
  | succ n ih =>
    cases c with
    | ended code => exact ⟨fun _ _ hl => by cases hl; exact ⟨n + 1, h⟩, fun _ _ hl => by cases hl⟩
    | going pc sheet =>
      refine ⟨fun code m₁ hl => ?_, fun e m₁ hl => ?_⟩
      · obtain ⟨c₁, m₂, ht, hl⟩ := bind_eq_ok hl
        exact (ih (hturn h ht)).1 code m₁ hl
      · obtain ht | ⟨c₁, m₂, ht, hl⟩ := bind_eq_error hl
        · exact hfail h ht
        · exact (ih (hturn h ht)).2 e m₁ hl

def started (m : Machine) : Machine :=
  { m with
    bank := { m.bank with holder := { m.bank.holder with inside := some m.bank.holder.outside, outside := none } }
    hasRow := false
    result := -1
    status := m.status.freeze }

def outset (m : Machine) : Course := .going (max m.pc 0) m.bank.holder.current?

theorem start_run (h : m.bank.holder.inside = none) : start m = .ok m.outset m.started := by
  have hreenter : Bank.reenter m.bank = .ok () m.started.bank := by
    simp only [Bank.reenter, bind_of_ok get_run, h]
    rfl
  have hcurrent : (liftM Bank.current? : MachineM (Option Sheet)) m = .ok m.bank.holder.current? m := rfl
  simp only [start, bind_of_ok get_run, bind_of_ok hcurrent, bind_of_ok (lift_of_ok hreenter)]
  rfl

def returned (m : Machine) : Machine :=
  m.withBank { m.bank with
    holder := { m.bank.holder with outside := m.bank.holder.current?, inside := none } }

theorem prepareReturn_run (h : m.bank.holder.outside = none) :
    (liftM Bank.prepareReturn : MachineM Unit) m = .ok () m.returned := by
  refine lift_of_ok ?_
  simp only [Bank.prepareReturn, bind_of_ok get_run, h]
  rfl

theorem run_eq (h : m.bank.holder.inside = none) :
    run m = (do
      let code ← loop (m.budget + 1) m.outset
      Bank.prepareReturn
      return code : MachineM Nat) m.started := by
  rw [run, bind_of_ok (start_run h)]
  rfl

end QueryMachine.Machine
