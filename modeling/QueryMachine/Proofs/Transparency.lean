import Mathlib
import QueryMachine.Proofs.Checked
import QueryMachine.Proofs.ClearSteps
import QueryMachine.Proofs.Sides

/-!
A machine with knowledge about its registers and one without do the same, as long as the one with knowledge gets
through and what it knows is lucid: no double that it knows is a zero, since the two zeros are not told apart, and of a
number that is marked as an integer and as a double it does not know the integer.
-/

namespace QueryMachine

open Bank Terms

namespace Fact

variable {f : Fact} {c : Cell}

/-- A double that is known is told apart from every other one. -/
def Distinct (f : Fact) (_ : Cell) : Prop := ∀ x ∈ f.real?, x.level ≠ 0

theorem creed_distinct : Creed Distinct where
  like {f g c} h hl _ _ x hx := by
    obtain ⟨y, hy⟩ : ∃ y, g.real? = some y := by
      rw [← Option.isSome_iff_exists, ← hl.isSome_real?, hx]
      rfl
    have hlevel := hl.real?_level
    rw [hx, hy] at hlevel
    rw [show x.level = y.level by simpa using hlevel]
    exact h y hy
  parts h _ _ := h
  look h := h
  nothing h x hx := by
    rw [real?_of_nothing h] at hx
    cases hx

/-- What is known of a cell can be relied on if it is true. -/
structure Lucid (f : Fact) (c : Cell) : Prop where
  distinct : f.Distinct c
  single : f.Single c

instance (f : Fact) (c : Cell) : Decidable (f.Lucid c) :=
  decidable_of_iff ((∀ x ∈ f.real?, x.level ≠ 0) ∧ (c.flags.int = true → c.flags.real = true → f.int? = none))
    ⟨fun h => ⟨h.1, h.2⟩, fun h => ⟨h.distinct, h.single⟩⟩

theorem creed_lucid : Creed Lucid := by
  have h := creed_distinct.and creed_single
  have hiff (f c) : Lucid f c ↔ f.Distinct c ∧ f.Single c := ⟨fun h => ⟨h.distinct, h.single⟩, fun h => ⟨h.1, h.2⟩⟩
  simpa only [← hiff] using h

theorem Lucid.clean (h : f.Lucid c) (hplain : f.Plain) (hholds : f.Holds c none) : f.Clean c := by
  refine ⟨⟨fun g hg => (hholds.flags g hg), hholds.int (by simp), fun x hx => ⟨h.distinct x hx, ?_⟩⟩, h.single⟩
  have hlevel := ((Number.real_eq_iff (hplain.real? hx) c.real).mp (hholds.real (by simp) x hx)).2
  cases x with
  | int n =>
    have hn : n = 0 := hplain.real? hx
    exact absurd (by rw [hn]; rfl) (h.distinct _ hx)
  | real x => exact congrArg Number.real (Double.eq_of_key_eq hlevel fun h' => h.distinct _ hx (hlevel.symm.trans h')).symm

end Fact

variable {d : Dims} {P : Terms} {L M : Fact → Cell → Prop}

/-! Checks. -/

namespace Bank

theorem clear_checkRegisters (h : ∀ f c, f.Plain → L f c → f.Holds c none → M f c) :
    Clear d (spread d L) Machine.checkRegisters fun _ => spread d M := by
  refine clear_of fun b b' hb a b₁ hrun => ?_
  obtain ⟨s, hk, hP⟩ := hb.knows
  obtain ⟨s', hk'⟩ := hb.blind
  have hblind (i : Nat) : (s'.fact i).Holds (b'.cellAt i) none := by
    rw [hb.fact_blind hk' i]
    exact Fact.holds_of_nothing rfl
  rcases hk.guards_checkRegisters with ⟨hok, hholds⟩ | ⟨hfail, -⟩
  · rw [hok] at hrun
    cases hrun
    refine ⟨b', hk'.guards_checkRegisters.run fun i _ => hblind i, { hb with knows := ⟨s, hk, fun j hj => ?_⟩ }⟩
    have hterm := hP j hj
    by_cases hlt : j < d.reach
    · rw [spread_of_lt hlt] at hterm ⊢
      exact h _ _ (hk.plain.fact j) hterm (hholds j (hb.reach ▸ hlt))
    · rwa [spread, if_neg hlt] at hterm ⊢
  · rw [hfail] at hrun
    cases hrun

theorem clear_prepare (i : Instruction) : Clear d (spread d Fact.Lucid) (Machine.prepare i) fun _ => spread d Fact.Clean := by
  have hcreed := creed_spread Fact.creed_clean d
  have hagain : Still d (spread d Fact.Clean) Machine.checkRegisters := clear_checkRegisters fun _ _ _ h _ => h
  have hrest : Clear d (spread d Fact.Lucid) (do
      Machine.checkRegisters
      if !i.op.keepsKnowledge then forgetAll
      Machine.checkRegisters) fun _ => spread d Fact.Clean := by
    refine (clear_checkRegisters fun _ _ hplain h hholds => h.clean hplain hholds).bind fun _ => .ite (fun _ => ?_) fun _ => hagain
    exact (clear_forgetAll fun j _ _ h => (hcreed j).nothing h).bind fun _ => hagain
  have hlucid := creed_spread Fact.creed_lucid d
  refine .ite (fun _ => clear_register_bind fun r hr => ?_) fun _ => hrest
  refine (clear_releaseExtern hlucid (Dims.lt_size hr)).bind fun _ => Clear.bind ?_ fun _ => hrest
  refine clear_setFlags (Dims.lt_size hr) (sound_of_creed hlucid) (fun _ _ _ _ h => of_honestAt h) fun f c h => ?_
  refine ⟨fun hg => (honestAt_self h _ hg).symm, ?_⟩
  have hterm := of_honestAt h
  rw [spread_of_lt hr] at hterm ⊢
  exact ⟨hterm.distinct, fun _ hreal => absurd (show Flags.onlyInt.real = true from hreal) (by decide)⟩

theorem clear_conclude (i : Instruction) :
    Clear d (anything d) (Machine.conclude i) fun _ => spread d fun f c => f.Plain ∧ f.Holds c none := by
  have hcheck : Clear d (anything d) Machine.checkRegisters fun _ => spread d fun f c => f.Plain ∧ f.Holds c none :=
    clear_checkRegisters fun _ _ hplain _ hholds => ⟨hplain, hholds⟩
  exact .ite (fun _ => Clear.bind clear_forgetAll_anything fun _ => hcheck) fun _ => hcheck

end Bank

theorem Machine.clear_execute (pc : Int) (i : Instruction) :
    Clear d (spread d Fact.Lucid) (execute pc i) (outcome d) :=
  (clear_prepare i).lift.bind fun _ => clear_step pc i

/-! Turns. -/

namespace Bank

variable {b b' : Bank} {s : Sheet} {h h' : Holder}

theorem Shadows.turned (hs : b.Shadows d P b') (ht : b.holder.Turns h) (ht' : b'.holder.Turns h') (hsides : h.Sides h') :
    ({ b with holder := h } : Bank).Shadows d P { b' with holder := h' } := by
  obtain ⟨s, hk, hP⟩ := hs.knows
  obtain ⟨s', hk'⟩ := hs.blind
  refine ⟨hs.reach, hs.size, ⟨s, hk.turned ht, hP⟩, ht.useCache.trans hs.on, ⟨s', hk'.turned ht'⟩, ht'.useCache.trans hs.off, hsides, ?_⟩
  rw [hs.same]
  rfl

end Bank

theorem Machine.enterTrace_veil (m : Machine) (h : Holder) (l : Ledger) (pc : Int) (op : Opcode) :
    (m.withBank (m.bank.veil h l)).enterTrace pc op = (m.enterTrace pc op).withBank (m.bank.veil h l) := by
  simp only [enterTrace, settleTrace_eq]
  rfl

namespace Beside

variable {Q : Terms} {m m' : Machine} {sheet sheet' : Option Sheet}

theorem mono (h : Beside d P m m') (hPQ : ∀ j f c, P j f c → Q j f c) : Beside d Q m m' := ⟨h.same, h.shadows.mono hPQ⟩

theorem turned (h : Beside d P m m') {g g' : Holder} (ht : m.bank.holder.Turns g) (ht' : m'.bank.holder.Turns g')
    (hsides : g.Sides g') : Beside d P (m.withBank { m.bank with holder := g }) (m'.withBank { m'.bank with holder := g' }) := by
  refine ⟨?_, h.shadows.turned ht ht' hsides⟩
  rw [h.same]
  rfl

theorem revealed (h : Beside d P m m') :
    Beside d P (m.revealed m.bank.holder.current?) (m'.revealed m'.bank.holder.current?) :=
  h.turned ⟨rfl, rfl, rfl⟩ ⟨rfl, rfl, rfl⟩ ⟨rfl, h.shadows.sides.outside⟩

theorem same_of {α : Type} (h : Beside d P m m') {f : Machine → α} (hf : ∀ m b, f (m.withBank b) = f m) : f m' = f m := by
  rw [h.same]
  exact hf m _

theorem entered (h : Beside d P (m.revealed sheet) (m'.revealed sheet')) (pc : Int) (i : Instruction) :
    Beside d P (m.entered pc i sheet) (m'.entered pc i sheet') := by
  have hbudget : m'.budget = m.budget := h.same_of (f := Machine.budget) fun _ _ => rfl
  have hsame : m'.revealed sheet' = (m.revealed sheet).withBank ((m.revealed sheet).bank.veil _ _) :=
    h.same.trans (congrArg _ h.shadows.same)
  refine ⟨?_, ?_⟩
  · show m'.entered pc i sheet' = (m.entered pc i sheet).withBank (m'.entered pc i sheet').bank
    rw [Machine.bank_entered, Machine.entered, Machine.entered, hbudget, hsame, Machine.enterTrace_veil]
    rfl
  · show (m.entered pc i sheet).bank.Shadows d P (m'.entered pc i sheet').bank
    rw [Machine.bank_entered, Machine.bank_entered]
    exact h.shadows

end Beside

namespace Machine

variable {m m' m₁ : Machine} {pc : Int} {i : Instruction} {sheet sheet' : Option Sheet} {c : Course}

/-- On a sheet that the machine may go on with, nothing is known that is not lucid. -/
def isLucid (m : Machine) (sheet : Option Sheet) : Bool :=
  sheet.all fun s => decide (∀ r < m.bank.reach, (s.fact r).Lucid (m.bank.cellAt r))

/-- What is known where a run stands between two instructions, or ends, is lucid. -/
def Course.isLucid : Course → Machine → Bool
  | .ended _, m => m.isLucid m.bank.holder.current?
  | .going _ sheet, m => m.isLucid sheet

theorem beside_lucid (h : Beside d (spread d L) m m') (hl : m.isLucid m.bank.holder.current? = true) :
    Beside d (spread d fun f c => L f c ∧ f.Lucid c) m m' := by
  obtain ⟨s, hk, hs⟩ := h.shadows.knows
  have hcurrent : m.bank.holder.current? = some s := hk.current
  rw [hcurrent] at hl
  have hlucid : ∀ r < m.bank.reach, (s.fact r).Lucid (m.bank.cellAt r) := by simpa [isLucid] using hl
  refine ⟨h.same, { h.shadows with knows := ⟨s, hk, fun j hj => ?_⟩ }⟩
  have hterm := hs j hj
  by_cases hlt : j < d.reach
  · rw [spread_of_lt hlt] at hterm ⊢
    exact ⟨hterm, hlucid j (h.shadows.reach ▸ hlt)⟩
  · rwa [spread, if_neg hlt] at hterm ⊢

/-- How two runs stand that go on side by side. -/
inductive Alongside (d : Dims) : Course → Machine → Course → Machine → Prop
  | ended {m m' : Machine} (code : Nat) (h : Beside d (legible d) m m') : Alongside d (.ended code) m (.ended code) m'
  | going {m m' : Machine} (pc : Int) {sheet sheet' : Option Sheet}
      (h : Beside d (anything d) (m.revealed sheet) (m'.revealed sheet')) :
      Alongside d (.going pc sheet) m (.going pc sheet') m'

theorem settle_alongside {flow : Flow} (h : Beside d (outcome d flow) m m') (hs : settle pc i flow m = .ok c m₁)
    (hl : c.isLucid m₁ = true) : ∃ c' m₁', settle pc i flow m' = .ok c' m₁' ∧ Alongside d c m₁ c' m₁' := by
  rcases settle_eq_ok hs with ⟨code, rfl, rfl, rfl⟩ | ⟨m₂, hc, -⟩
  · exact ⟨.ended code, m', rfl, .ended code h⟩
  have hsettled (h : Beside d (anything d) m m') : ∃ m₂', (liftM (conclude i) : MachineM Unit) m' = .ok () m₂' ∧
      Beside d (spread d fun f c => f.Plain ∧ f.Holds c none) m₂ m₂' := (clear_conclude i).lift m m' h () m₂ hc
  cases flow with
  | leave code =>
    cases hs
    exact ⟨.ended code, m', rfl, .ended code h⟩
  | next =>
    obtain ⟨m₂', hc', h₂⟩ := hsettled h
    rw [settle_next_of hc] at hs
    cases hs
    exact ⟨_, m₂', settle_next_of hc', .going _ (h₂.mono (spread_mono fun _ _ _ => trivial)).revealed⟩
  | jump target =>
    obtain ⟨m₂', hc', h₂⟩ := hsettled h
    rw [settle_jump_of hc] at hs
    cases hs
    refine ⟨_, _, settle_jump_of hc' target, .going target ?_⟩
    have hrevealed := (h₂.mono (spread_mono (M := fun _ _ => True) fun _ _ _ => trivial)).revealed
    split <;> exact hrevealed
  | fail code =>
    obtain ⟨m₂', hc', h₂⟩ := hsettled h
    rw [settle_fail_of hc] at hs
    cases hs
    refine ⟨_, m₂', settle_fail_of hc' code, .ended code ((beside_lucid h₂ hl).mono (spread_mono ?_))⟩
    exact fun f c h => (h.2.clean h.1.1 h.1.2).toSure.legible

theorem turn_alongside (h : Beside d (anything d) (m.revealed sheet) (m'.revealed sheet')) (hl : m.isLucid sheet = true)
    (hrun : turn pc sheet m = .ok c m₁) (hl₁ : c.isLucid m₁ = true) :
    ∃ c' m₁', turn pc sheet' m' = .ok c' m₁' ∧ Alongside d c m₁ c' m₁' := by
  obtain ⟨i, flow, m₂, hfetch, hbudget, -, hx, hs⟩ := turn_eq_ok hrun
  have hprogram : m'.program = m.program := h.same_of (f := Machine.program) fun _ _ => rfl
  have hsame : m'.budget = m.budget := h.same_of (f := Machine.budget) fun _ _ => rfl
  have hlucid := (beside_lucid h hl).mono (spread_mono fun _ _ h => h.2)
  obtain ⟨m₂', hx', h₂⟩ := clear_execute pc i _ _ (hlucid.entered pc i) flow m₂ hx
  obtain ⟨c', m₁', hs', h₁⟩ := settle_alongside h₂ hs hl₁
  refine ⟨c', m₁', ?_, h₁⟩
  rw [turn_run (fetch_congr hprogram hfetch) (hsame ▸ hbudget), bind_of_ok hx', hs']

/-! Runs. -/

/-- Along a run, as far as it gets through, nothing is known that is not lucid. -/
def lucidLoop : Nat → Course → Machine → Bool
  | 0, c, m => c.isLucid m
  | _ + 1, .ended code, m => (Course.ended code).isLucid m
  | fuel + 1, .going pc sheet, m =>
    m.isLucid sheet &&
      match turn pc sheet m with
      | .ok c m₁ => lucidLoop fuel c m₁
      | .error _ _ => true

def lucidRun (m : Machine) : Bool := lucidLoop (m.budget + 1) m.outset m.started

theorem isLucid_of_lucidLoop {fuel : Nat} (h : lucidLoop fuel c m = true) : c.isLucid m = true := by
  cases fuel with
  | zero => exact h
  | succ fuel =>
    cases c with
    | ended code => exact h
    | going pc sheet => exact (Bool.and_eq_true_iff.mp h).1

theorem loop_alongside {fuel code : Nat} {c' : Course} (h : Alongside d c m c' m') (hl : lucidLoop fuel c m = true)
    (hrun : loop fuel c m = .ok code m₁) : ∃ m₁', loop fuel c' m' = .ok code m₁' ∧ Beside d (legible d) m₁ m₁' := by
  induction fuel generalizing c c' m m' with
  | zero =>
    cases h with
    | ended code' h =>
      cases hrun
      exact ⟨m', rfl, h⟩
    | going pc h => cases hrun
  | succ fuel ih =>
    cases h with
    | ended code' h =>
      cases hrun
      exact ⟨m', rfl, h⟩
    | going pc h =>
      obtain ⟨c₁, m₂, hturn, hloop⟩ := bind_eq_ok hrun
      obtain ⟨hnow, hrest⟩ := Bool.and_eq_true_iff.mp hl
      rw [hturn] at hrest
      obtain ⟨c₁', m₂', hturn', h₂⟩ := turn_alongside h hnow hturn (isLucid_of_lucidLoop hrest)
      obtain ⟨m₁', hloop', h₁⟩ := ih h₂ hrest hloop
      exact ⟨m₁', (bind_of_ok hturn').trans hloop', h₁⟩

theorem outside_of_through {code : Nat} {s : Sheet} (hk : m.bank.Keeps s) (hrun : run m = .ok code m₁) :
    m.bank.holder.Outside := by
  cases hin : m.bank.holder.inside with
  | none =>
    have hcurrent := hk.current
    rw [Holder.current?, hin] at hcurrent
    exact ⟨hin, by rw [show m.bank.holder.outside = some s from hcurrent]; rfl⟩
  | some sheet =>
    have hreenter : Bank.reenter m.bank = .error (.assertion "") m.bank := by
      simp only [Bank.reenter, bind_of_ok get_run, hin]
      rfl
    have hcurrent : (liftM Bank.current? : MachineM (Option Sheet)) m = .ok m.bank.holder.current? m := rfl
    simp only [run, start, bind_assoc, bind_of_ok get_run, bind_of_ok hcurrent, bind_of_error (lift_of_error hreenter)] at hrun
    cases hrun

theorem outset_alongside (h : Beside d (legible d) m m') : Alongside d m.outset m.started m'.outset m'.started := by
  have hpc : m'.pc = m.pc := h.same_of (f := Machine.pc) fun _ _ => rfl
  have hstarted : Beside d (legible d) (m.started.revealed m.bank.holder.current?) (m'.started.revealed m'.bank.holder.current?) := by
    refine ⟨?_, h.shadows.turned ⟨rfl, rfl, rfl⟩ ⟨rfl, rfl, rfl⟩ ⟨rfl, rfl⟩⟩
    rw [h.same]
    rfl
  rw [outset, outset, hpc]
  exact .going _ (hstarted.mono (spread_mono fun _ _ _ => trivial))

theorem run_beside {code : Nat} (h : Beside d (legible d) m m') (hl : m.lucidRun = true) (hrun : run m = .ok code m₁) :
    ∃ m₁', run m' = .ok code m₁' ∧ Beside d (legible d) m₁ m₁' := by
  obtain ⟨s, hk, -⟩ := h.shadows.knows
  have houtside := outside_of_through hk hrun
  have houtside' : m'.bank.holder.Outside := by
    refine ⟨Option.not_isSome_iff_eq_none.mp ?_, h.shadows.sides.outside.trans houtside.2⟩
    rw [show m'.bank.holder.inside.isSome = m.bank.holder.inside.isSome from h.shadows.sides.inside, houtside.1]
    simp
  have hbudget : m'.budget = m.budget := h.same_of (f := Machine.budget) fun _ _ => rfl
  rw [run_eq houtside.1] at hrun
  obtain ⟨_, m₂, hloop, hrun⟩ := bind_eq_ok hrun
  obtain ⟨m₂', hloop', h₂⟩ := loop_alongside (outset_alongside h) hl hloop
  rw [← hbudget] at hloop'
  have hinside := inside_looped houtside
  have hinside' := inside_looped houtside'
  rw [after_of_ok hloop] at hinside
  rw [after_of_ok hloop'] at hinside'
  rw [bind_of_ok (prepareReturn_run hinside.1)] at hrun
  cases hrun
  refine ⟨m₂'.returned, ?_, h₂.turned ⟨rfl, rfl, rfl⟩ ⟨rfl, rfl, rfl⟩ ⟨rfl, ?_⟩⟩
  · rw [run_eq houtside'.1, bind_of_ok hloop', bind_of_ok (prepareReturn_run hinside'.1)]
    rfl
  · exact (Inside.current hinside').trans (Inside.current hinside).symm

/-! The other requests. -/

section Requests

variable {α : Type} {k : Nat → MachineM α} {S : α → Terms}

theorem clear_column_bind (j : Int) (hk : ∀ r < d.reach, Clear d P (k r) S) : Clear d P (column j >>= k) S := by
  rw [column, bind_assoc]
  exact Clear.gets (fun _ _ _ => rfl) fun m => clear_register_bind hk

end Requests

theorem reads_legible (d : Dims) : (legible d).Reads := reads_spread Fact.creed_legible (fun _ _ h => h) d

theorem still_columnKind (j : Int) : Still d (legible d) (columnKind j) :=
  clear_column_bind j fun _ hr => (still_valueKind (reads_legible d).creed (Dims.lt_size hr)).lift

theorem still_columnInt (j : Int) : Still d (legible d) (columnInt j) :=
  clear_column_bind j fun _ hr => (still_intValue (reads_legible d) (Dims.lt_size hr)).lift

theorem still_columnReal (j : Int) : Still d (legible d) (columnReal j) :=
  clear_column_bind j fun _ hr => (still_realValue (reads_legible d) (Dims.lt_size hr)).lift.bind fun _ => .pure _

theorem still_columnBytes (j : Int) : Still d (legible d) (columnBytes j) :=
  clear_column_bind j fun _ hr => (still_valueBytes (reads_legible d).creed (Dims.lt_size hr)).lift

theorem still_columnText (j : Int) : Still d (legible d) (columnText j) :=
  clear_column_bind j fun _ hr => (still_valueText (reads_legible d).creed (Dims.lt_size hr)).lift.bind fun _ => .pure _

theorem still_row : Still d (legible d) row :=
  Clear.gets (fun _ _ _ => rfl) fun _ => Still.mapM fun j _ => clear_column_bind j fun _ hr =>
    (still_value (reads_legible d) (Dims.lt_size hr)).lift

theorem still_unbind (j : Int) : Still d (legible d) (unbind j) := by
  have hrest (expiring : BitVec 32) : Still d (legible d) (do
      let r ← Bank.parameter (j - 1)
      Bank.release r
      Bank.setFlags r .onlyNull
      if j < 1 then throw .badValue
      if expiring.getLsbD (j - 1).toNat then throw .expiring : MachineM Unit) := by
    refine clear_parameter_bind fun r hr hvar => ?_
    have hloose := loose_of_le Fact.creed_legible hvar
    refine (clear_release hloose.creed hr).lift.bind fun _ => (clear_setFlags_honestAt hloose hr _).lift.bind fun _ => ?_
    have hlast : Still d (legible d) (if expiring.getLsbD (j - 1).toNat then throw .expiring else pure () : MachineM Unit) :=
      Still.ite (.throw _) (.pure _)
    exact Still.ite (Still.bind (.throw _) fun _ => hlast) hlast
  exact Clear.gets (fun _ _ _ => rfl) fun m => .ite (fun _ => .bind (.throw _) fun _ => hrest _) fun _ => hrest _

theorem still_bindInt (j n : Int) : Still d (legible d) (bindInt j n) :=
  (still_unbind j).bind fun _ => clear_parameter_bind fun _ hr hvar =>
    (still_setInteger (loose_of_le Fact.creed_legible hvar) hr n).lift

theorem still_bindReal (j : Int) (x : Double) : Still d (legible d) (bindReal j x) :=
  (still_unbind j).bind fun _ => clear_parameter_bind fun _ hr hvar =>
    (still_setDouble (loose_of_le Fact.creed_legible hvar) hr _).lift

/-- Nothing is known of any cell. -/
def unknown : Terms := fun _ f _ => f.known = .nothing

theorem legible_of_unknown (j : Nat) (f : Fact) (c : Cell) (h : unknown j f c) : legible d j f c :=
  ((reads_legible d).creed j).nothing h

theorem clear_forgetAllOutside : Clear d P forgetAllOutside fun _ => unknown := by
  have hforget {b : Bank} (hin : b.holder.inside = none) :
      forgetAllOutside b = .ok () { b with holder := { b.holder with outside := some b.holder.blank } } := by
    have hnone : b.holder.inside.isNone = true := by rw [hin]; rfl
    simp only [forgetAllOutside, bind_of_ok get_run, hnone]
    rfl
  refine clear_of fun b b' h a b₁ hrun => ?_
  obtain ⟨s, hk, -⟩ := h.knows
  obtain ⟨s', hk'⟩ := h.blind
  cases hin : b.holder.inside with
  | some sheet =>
    simp only [forgetAllOutside, bind_of_ok get_run, hin] at hrun
    cases hrun
  | none =>
    have hin' : b'.holder.inside = none := by
      have hsides := h.sides.inside
      rw [hin] at hsides
      simpa using hsides
    rw [hforget hin] at hrun
    cases hrun
    refine ⟨_, hforget hin', h.reach, h.size, ⟨_, hk.blank_outside hin, fun j _ => ?_⟩, h.on, ⟨_, hk'.blank_outside hin'⟩, h.off,
      ⟨h.sides.inside, rfl⟩, ?_⟩
    · show (b.holder.blank.facts.getD j {}).known = .nothing
      rw [hk.blank, Sheet.getD_blank]
    · rw [h.same]
      rfl

theorem still_reset : Still d (legible d) reset := by
  refine Clear.bind (Clear.lift (clear_forgetAllOutside.weaken fun _ => legible_of_unknown (d := d))) fun _ => ?_
  exact (still_halt false).bind fun _ => .modify fun _ _ => rfl

theorem still_modifyCellWith_unknown (r : Nat) (g : Nat → Cell → Cell) : Still d unknown (modifyCellWith r g) := by
  refine clear_of fun b b' h a b₁ hrun => ?_
  rw [modifyCellWith_run] at hrun
  cases hrun
  refine ⟨_, modifyCellWith_run b' r g, ?_⟩
  rw [h.cellAt, show b'.fresh = b.fresh by rw [h.same]; rfl]
  exact h.renewed.put _ (fun _ _ _ _ h _ _ => h) (fun _ _ _ _ h => h) fun _ h => h

theorem still_bindText (j : Int) (bytes : Bytes) : Still d (legible d) (bindText j bytes) := by
  refine Clear.weaken (Q := fun _ => unknown) ?_ fun _ => legible_of_unknown
  refine clear_forgetAllOutside.lift.bind fun _ => Clear.gets (fun _ _ _ => rfl) fun m => ?_
  refine Still.ite (.pure _) (.ite (.pure _) ?_)
  exact (still_modifyCellWith_unknown _ _).lift.bind fun _ => .pure _

end Machine

/-! Scripts of requests. -/

inductive Reply
  | call (a : Answer)
  | kind (k : Value.Kind)
  | int (n : Int)
  | real (x : Double)
  | text (bytes : Option Bytes)
  deriving Repr, DecidableEq, Inhabited

namespace Request

open Machine

def reply : Request → MachineM Reply
  | call c => return .call (← c.perform)
  | columnKind i => return .kind (← Machine.columnKind i)
  | columnInt i => return .int (← Machine.columnInt i)
  | columnReal i => return .real (← Machine.columnReal i)
  | columnBytes i => return .int (← Machine.columnBytes i)
  | columnText i => return .text (← Machine.columnText i)

/-- In a run that is asked for, nothing is known that is not lucid. -/
def isLucid : Request → Machine → Bool
  | call .run, m => m.lucidRun
  | _, _ => true

/-- In no run that a script asks for anything is known that is not lucid. -/
def lucidAll : List Request → Machine → Bool
  | [], _ => true
  | q :: qs, m => q.isLucid m && lucidAll qs (after q.reply m)

theorem still_reply {q : Request} (hq : q ≠ call .run) : Still d (legible d) q.reply := by
  cases q with
  | call c =>
    refine Still.bind ?_ fun _ => .pure _
    cases c with
    | run => exact absurd rfl hq
    | row => exact still_row.bind fun _ => .pure _
    | reset => exact still_reset.bind fun _ => .pure _
    | bindNull i => exact (still_unbind i).bind fun _ => .pure _
    | bindInt i n => exact (still_bindInt i n).bind fun _ => .pure _
    | bindReal i x => exact (still_bindReal i x).bind fun _ => .pure _
    | bindText i bytes => exact (still_bindText i bytes).bind fun _ => .pure _
  | columnKind i => exact (still_columnKind i).bind fun _ => .pure _
  | columnInt i => exact (still_columnInt i).bind fun _ => .pure _
  | columnReal i => exact (still_columnReal i).bind fun _ => .pure _
  | columnBytes i => exact (still_columnBytes i).bind fun _ => .pure _
  | columnText i => exact (still_columnText i).bind fun _ => .pure _

variable {m m' m₁ : Machine}

theorem reply_beside {q : Request} {r : Reply} (h : Beside d (legible d) m m') (hl : q.isLucid m = true)
    (hrun : q.reply m = .ok r m₁) : ∃ m₁', q.reply m' = .ok r m₁' ∧ Beside d (legible d) m₁ m₁' := by
  by_cases hq : q = call .run
  · subst hq
    obtain ⟨a, m₂, hcall, hrun⟩ := bind_eq_ok hrun
    obtain ⟨code, m₃, hcode, hcall⟩ := bind_eq_ok hcall
    cases hcall
    cases hrun
    obtain ⟨m₁', hcode', h₁⟩ := run_beside h hl hcode
    exact ⟨m₁', bind_of_ok (bind_of_ok hcode'), h₁⟩
  · exact still_reply hq m m' h r m₁ hrun

theorem replies_beside {qs : List Request} {rs : List Reply} (h : Beside d (legible d) m m') (hl : lucidAll qs m = true)
    (hrun : qs.mapM reply m = .ok rs m₁) : ∃ m₁', qs.mapM reply m' = .ok rs m₁' ∧ Beside d (legible d) m₁ m₁' := by
  induction qs generalizing m m' rs with
  | nil =>
    cases hrun
    exact ⟨m', rfl, h⟩
  | cons q qs ih =>
    rw [List.mapM_cons] at hrun ⊢
    obtain ⟨r, m₂, hreply, hrun⟩ := bind_eq_ok hrun
    obtain ⟨rest, m₃, hrest, hrun⟩ := bind_eq_ok hrun
    cases hrun
    obtain ⟨hnow, hlater⟩ := Bool.and_eq_true_iff.mp hl
    rw [after_of_ok hreply] at hlater
    obtain ⟨m₂', hreply', h₂⟩ := reply_beside h hnow hreply
    obtain ⟨m₁', hrest', h₁⟩ := ih h₂ hlater hrest
    exact ⟨m₁', (bind_of_ok hreply').trans (bind_of_ok hrest'), h₁⟩

end Request

/-- How many cells the machines of a setup have. -/
def Setup.dims (s : Setup) : Dims := ⟨1 + s.registers + s.cursors, 1 + s.registers + s.cursors + s.parameters, Nat.le_add_right _ _⟩

theorem Machine.beside_ofSetup (s : Setup) :
    Beside s.dims (legible s.dims) (ofSetup { s with useCache := true }) (ofSetup { s with useCache := false }) := by
  let cells := s.initial.foldl (fun cells x => cells.setIfInBounds x.1 x.2)
    (Array.replicate (1 + s.registers + s.cursors) ({} : Cell) ++ Array.replicate s.parameters Cell.null)
  have hsize : cells.size = s.dims.size := by
    rw [size_foldl_set, Array.size_append, Array.size_replicate, Array.size_replicate]
    rfl
  have hkeeps (useCache : Bool) := (keeps_ofCells cells useCache s.fresh)
  refine ⟨rfl, rfl, hsize, ⟨_, (hkeeps true).carry rfl rfl rfl rfl, fun j _ => legible_of_unknown _ _ _ ?_⟩, rfl,
    ⟨_, (hkeeps false).carry rfl rfl rfl rfl⟩, rfl, ⟨rfl, rfl⟩, rfl⟩
  show ((List.replicate cells.size ({} : Fact)).getD j {}).known = .nothing
  rw [Sheet.getD_blank]

/-- Constants are added, their sum is handed out, and a parameter is taken into a loop that counts it down. -/
def constants : Setup where
  registers := 4
  parameters := 1
  columns := 2
  program := #[
    ⟨.integer, 5, 1, 0, .none, 0⟩,
    ⟨.real, 0, 2, 0, .real ⟨0x4004000000000000⟩, 0⟩,
    ⟨.add, 1, 2, 3, .none, 0⟩,
    ⟨.parameter, 1, 4, 0, .none, 0⟩,
    ⟨.resultRow, 3, 2, 0, .none, 0⟩,
    ⟨.ifZero, 4, 7, -1, .none, 0⟩,
    ⟨.goto, 0, 4, 0, .none, 0⟩,
    ⟨.halt, 0, 0, 0, .none, 0⟩]
  status := { useFlagCache := true }
  database := default

def constantsScript : List Request :=
  [.call (.bindInt 1 2), .call .run, .call .row, .columnReal 0, .call .run, .call .row, .call .run, .call .reset,
    .call (.bindReal 1 ⟨0x3FF0000000000000⟩), .call .run]

def constantsReplies : List Reply :=
  [.call .none, .call (.code 100), .call (.row [.real ⟨0x401E000000000000⟩, .int 2]), .real ⟨0x401E000000000000⟩,
    .call (.code 100), .call (.row [.real ⟨0x401E000000000000⟩, .int 1]), .call (.code 101), .call .none, .call .none,
    .call (.code 100)]

/-- A register that holds an integer is given a double. -/
def overwritten : Setup where
  registers := 1
  program := #[⟨.integer, 5, 1, 0, .none, 0⟩, ⟨.real, 0, 1, 0, .real ⟨0x4004000000000000⟩, 0⟩, ⟨.halt, 0, 0, 0, .none, 0⟩]
  status := { useFlagCache := true }
  database := default

/-- Zero is multiplied by a number below it. -/
def signs : Setup where
  registers := 3
  columns := 1
  program := #[
    ⟨.real, 0, 1, 0, .real .zero, 0⟩,
    ⟨.integer, -5, 2, 0, .none, 0⟩,
    ⟨.multiply, 1, 2, 3, .none, 0⟩,
    ⟨.resultRow, 3, 1, 0, .none, 0⟩,
    ⟨.halt, 0, 0, 0, .none, 0⟩]
  status := { useFlagCache := true }
  database := default

end QueryMachine
