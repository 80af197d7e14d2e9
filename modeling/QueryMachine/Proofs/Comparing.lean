import Mathlib
import QueryMachine.Machine.Step
import QueryMachine.Proofs.Certain
import QueryMachine.Proofs.Order
import QueryMachine.Proofs.Turns

/-!
Comparisons of registers and of vectors of registers. The direct rule sees the order of values; the
tracked rule sees it, too, but for a number before a string, which it finds behind it.
-/

namespace QueryMachine

open Std

namespace Value

/-- The order that the tracked rule sees. -/
def seen (coll : Collation) (v w : Value) : Ordering :=
  if v.isNumber && w.isString then .gt else v.compare coll w

/-- The order of two vectors that the tracked rule sees, from column `c` on. -/
def seenVector (k : KeyInfo) (c : Nat) : List Value → List Value → Ordering
  | v :: vs, w :: ws =>
    match v.seen (k.collation c) w with
    | .eq => seenVector k (c + 1) vs ws
    | o => if k.descending c then o.swap else o
  | _, _ => .eq

/-- Whether there is a number on one side and a string on the other in the first column in which two
vectors differ. -/
def clashes (k : KeyInfo) (c : Nat) : List Value → List Value → Bool
  | v :: vs, w :: ws =>
    if v.compare (k.collation c) w = .eq then clashes k (c + 1) vs ws
    else v.isNumber && w.isString || v.isString && w.isNumber
  | _, _ => false

end Value

namespace Number.Stands

variable {a b : Number} {x y : Double}

/-- What may be read for two doubles compares as they do, a NaN included. -/
theorem lt_eq (ha : a.Stands x) (hb : b.Stands y) : a.lt b = x.lt y ∧ a.gt b = y.lt x := by
  by_cases hx : x.isNaN = true
  · obtain rfl : a = .real x := ha.resolve_right fun h => by
      rw [h.2.1] at hx
      cases hx
    have hnone : (Number.real x).cmp? b = none := by cases b <;> simp [Number.cmp?, hx]
    simp [Number.lt, Number.gt, hnone, Double.lt, hx]
  · by_cases hy : y.isNaN = true
    · obtain rfl : b = .real y := hb.resolve_right fun h => by
        rw [h.2.1] at hy
        cases hy
      have hnone : a.cmp? (.real y) = none := by cases a <;> simp [Number.cmp?, hy]
      simp [Number.lt, Number.gt, hnone, Double.lt, hy]
    · rw [Bool.not_eq_true] at hx hy
      have hlt : (some (compare x.key y.key) == some .lt) = decide (x.key < y.key) := by
        rw [Bool.eq_iff_iff, beq_iff_eq, Option.some.injEq, decide_eq_true_eq]
        exact compare_lt_iff_lt
      have hgt : (some (compare x.key y.key) == some .gt) = decide (y.key < x.key) := by
        rw [Bool.eq_iff_iff, beq_iff_eq, Option.some.injEq, decide_eq_true_eq]
        exact compare_gt_iff_gt
      simp only [Number.lt, Number.gt, ha.cmp? hb hx hy, hlt, hgt, Double.lt, hx, hy, Bool.not_false, Bool.true_and,
        and_self]

end Number.Stands

namespace Cell

/-- The double that a number is compared as. -/
def rounded (c : Cell) : Double := if c.flags.real then c.real else .ofInt c.int

/-- The order of two registers with values that the tracked rule sees. -/
def judged (coll : Option Collation) (c d : Cell) : Ordering :=
  if c.flags.numeric && !d.flags.numeric then .gt else compare coll c d

theorem isReal_value {c : Cell} (h : c.flags.real = false) : c.value.isReal = false := by
  unfold value
  rcases c.flags.kind_cases with ⟨hk, _⟩ | ⟨hk, _⟩ | ⟨_, _, _, hr⟩ | ⟨hk, _⟩
  · rw [hk]; rfl
  · rw [hk]; rfl
  · rw [h] at hr
    cases hr
  · rw [hk]
    cases c.flags.str <;> rfl

theorem compare_value (coll : Option Collation) {a b : Cell} (ha : a.flags.real = false)
    (hb : b.flags.real = false) :
    compare coll a b = a.value.compare (coll.getD .binary) b.value := by
  simp only [compare, compareStrings, compareNumbers, Flags.numeric, value, Flags.kind, ha, hb]
  cases a.flags.null <;> cases b.flags.null <;> cases a.flags.int <;> cases b.flags.int <;>
    cases a.flags.str <;> cases b.flags.str <;> rfl

/-- Only an integer in front of a string is seen in another order than the direct rule sees. -/
theorem seen_value (coll : Option Collation) {a b : Cell} (ha : a.flags.real = false)
    (hb : b.flags.real = false) : a.value.seen (coll.getD .binary) b.value =
      if !a.flags.null && !b.flags.null && a.flags.int && !b.flags.int then .gt else compare coll a b := by
  rw [compare_value coll ha hb]
  simp only [value, Flags.kind, ha, hb]
  cases a.flags.null <;> cases b.flags.null <;> cases a.flags.int <;> cases b.flags.int <;>
    cases a.flags.str <;> cases b.flags.str <;> rfl

end Cell

namespace Bank

variable {b : Bank} {t : Sheet} {known : Nat → Bool} {i j : Nat}

theorem trusts_ofCells (cells : Array Cell) (useCache : Bool) (fresh : Nat) :
    (ofCells cells useCache true fresh).Trusts ⟨0, List.replicate cells.size {}⟩ fun _ => false where
  keeps := keeps_ofCells cells useCache fresh
  reach := Nat.le_refl _
  holds r _ := Fact.holds_of_nothing (by rw [Sheet.fact, Sheet.getD_blank])
  real r hr := by
    rw [Sheet.fact, Sheet.getD_blank] at hr
    cases hr

theorem rounded_run (h : b.Obeys Fact.True) (hi : i < b.reach) :
    ∃ a : Number, rounded i (b.cellAt i).flags b = .ok a b ∧ a.Stands (b.cellAt i).rounded := by
  rw [rounded, Cell.rounded]
  split
  · exact h.real_run hi
  · exact ⟨_, bind_of_ok (h.int_run hi), .inl rfl⟩

theorem compare_run (h : b.Obeys Fact.True) (hi : i < b.reach) (hj : j < b.reach)
    (hni : (b.cellAt i).flags.null = false) (hnj : (b.cellAt j).flags.null = false) (coll : Option Collation) :
    ∃ t l, Bank.compare i j coll b = .ok (Cell.judged coll (b.cellAt i) (b.cellAt j)) (b.knowing t l) ∧
      (b.knowing t l).Obeys Fact.True := by
  obtain ⟨t₁, l₁, hlook₁, h₁⟩ := h.flags_run Fact.law_true hi
  obtain ⟨t₂, l₂, hlook₂, h₂⟩ := h₁.flags_run Fact.law_true hj
  rw [knowing_knowing] at hlook₂ h₂
  have hint₁ := h₂.int_run hi
  have hint₂ := h₂.int_run hj
  obtain ⟨x, hx, hxs⟩ := rounded_run h₂ hi
  obtain ⟨y, hy, hys⟩ := rounded_run h₂ hj
  simp only [cellAt_knowing] at hlook₂ hint₁ hint₂ hx hxs hy hys
  have hrun : Bank.compare i j coll b = _ := (bind_of_ok hlook₁).trans (bind_of_ok hlook₂)
  rw [hrun, Cell.judged, Cell.compare]
  simp only [hni, hnj, Bool.or_self, Bool.false_eq_true, if_false]
  by_cases hfi : (b.cellAt i).flags.numeric = true
  · by_cases hfj : (b.cellAt j).flags.numeric = true
    · refine ⟨t₂, l₂, ?_, h₂⟩
      simp only [hfi, hfj, Bool.or_self, Bool.not_true, Bool.and_false, if_true, Bool.false_eq_true, if_false,
        Cell.compareNumbers]
      by_cases hints : ((b.cellAt i).flags.int && (b.cellAt j).flags.int) = true
      · simp only [hints, if_true]
        rw [bind_of_ok hint₁, bind_of_ok hint₂]
        rfl
      · simp only [hints, Bool.false_eq_true, if_false]
        obtain ⟨hlt, hgt⟩ := hxs.lt_eq hys
        rw [bind_of_ok hx, bind_of_ok hy, hlt, hgt]
        rfl
    · refine ⟨t₂, l₂, ?_, h₂⟩
      have hints : ((b.cellAt i).flags.int && (b.cellAt j).flags.int) = false := by
        rw [Flags.numeric, Bool.or_eq_true, not_or] at hfj
        simp [hfj.1]
      simp only [hfi, hfj, hints, Bool.or_false, Bool.not_true, Bool.not_false, Bool.and_self, if_true,
        Bool.false_eq_true, if_false]
      exact bind_of_ok hx
  · by_cases hfj : (b.cellAt j).flags.numeric = true
    · refine ⟨t₂, l₂, ?_, h₂⟩
      have hints : ((b.cellAt i).flags.int && (b.cellAt j).flags.int) = false := by
        rw [Flags.numeric, Bool.or_eq_true, not_or] at hfi
        simp [hfi.1]
      simp only [hfi, hfj, hints, Bool.false_or, Bool.not_false, Bool.false_and, if_true, Bool.false_eq_true, if_false]
      rfl
    · -- two strings are compared by the direct rule, once nothing is known about them
      obtain ⟨t₃, l₃, hforget₁, h₃⟩ := h₂.invalidate_run Fact.law_true hi
      obtain ⟨t₄, l₄, hforget₂, h₄⟩ := h₃.invalidate_run Fact.law_true hj
      simp only [knowing_knowing] at hforget₁ hforget₂ h₃ h₄
      refine ⟨t₄, l₄, ?_, h₄⟩
      simp only [hfi, hfj, Bool.or_self, Bool.false_and, Bool.false_eq_true, if_false]
      rw [bind_of_ok hforget₁, bind_of_ok hforget₂, bind_of_ok (cell_run _ i), bind_of_ok (cell_run _ j), Cell.compare]
      simp only [cellAt_knowing, hni, hnj, hfi, hfj, Bool.or_self, Bool.false_eq_true, if_false]
      rfl

theorem Obeys.compare_seen (h : b.Obeys Fact.True) (hi : i < b.reach) (hj : j < b.reach)
    (hri : (b.cellAt i).flags.real = false) (hrj : (b.cellAt j).flags.real = false) (coll : Option Collation) :
    ∃ t l, Bank.compare i j coll b =
        .ok ((b.cellAt i).value.seen (coll.getD .binary) (b.cellAt j).value) (b.knowing t l) ∧
      (b.knowing t l).Obeys Fact.True := by
  rw [Cell.seen_value coll hri hrj]
  by_cases hn : ((b.cellAt i).flags.null || (b.cellAt j).flags.null) = true
  · obtain ⟨t₁, l₁, hlook₁, h₁⟩ := h.flags_run Fact.law_true hi
    obtain ⟨t₂, l₂, hlook₂, h₂⟩ := h₁.flags_run Fact.law_true hj
    rw [knowing_knowing] at hlook₂ h₂
    refine ⟨t₂, l₂, ((bind_of_ok hlook₁).trans (bind_of_ok hlook₂)).trans ?_, h₂⟩
    rw [cellAt_knowing, if_pos hn, ← Bool.not_or, hn, Bool.not_true, Bool.false_and, Bool.false_and,
      if_neg Bool.false_ne_true, Cell.compare, if_pos hn]
    rfl
  · obtain ⟨hni, hnj⟩ := Bool.or_eq_false_iff.mp (Bool.eq_false_of_not_eq_true hn)
    obtain ⟨t, l, hrun, h'⟩ := compare_run h hi hj hni hnj coll
    rw [Cell.judged, Flags.numeric, Flags.numeric, hri, hrj, Bool.or_false, Bool.or_false] at hrun
    rw [hni, hnj]
    exact ⟨t, l, hrun, h'⟩

/-- A register that can be compared: a register of the program that is not a double. -/
def Comparable (b : Bank) (r : Nat) : Prop := r < b.reach ∧ (b.cellAt r).flags.real = false

/-- The values of `n` registers from column `c` on. -/
def vector (b : Bank) (p : Int) : Nat → Nat → List Value
  | 0, _ => []
  | n + 1, c => (b.cellAt (p + c).toNat).value :: b.vector p n (c + 1)

@[simp] theorem vector_knowing (b : Bank) (t : Sheet) (l : Ledger) (p : Int) (n c : Nat) :
    (b.knowing t l).vector p n c = b.vector p n c := by
  induction n generalizing c with
  | zero => rfl
  | succ n ih => rw [vector, vector, ih, cellAt_knowing]

/-- The registers of a vector can be compared. -/
def Spans (b : Bank) (p : Int) (n : Nat) : Prop := ∀ c : Nat, c < n → 0 ≤ p + c ∧ b.Comparable (p + c).toNat

theorem Obeys.compareVectors_run (h : b.Obeys Fact.True) {k : KeyInfo} {p q : Int} {n c : Nat}
    (hk : c + n ≤ k.columns.length) (hp : b.Spans p (c + n)) (hq : b.Spans q (c + n)) :
    ∃ t l, Tracked.compareVectors k p q n c b =
        .ok (Value.seenVector k c (b.vector p n c) (b.vector q n c)) (b.knowing t l) ∧
      (b.knowing t l).Obeys Fact.True := by
  induction n generalizing c b with
  | zero =>
    have ⟨t, hkeeps, _⟩ := h
    exact ⟨t, b.ledger, by rw [hkeeps.knowing_self]; rfl, by rwa [hkeeps.knowing_self]⟩
  | succ n ih =>
    obtain ⟨hp0, hpr, hpreal⟩ := hp c (by omega)
    obtain ⟨hq0, hqr, hqreal⟩ := hq c (by omega)
    have hcolumn : decide (c < k.columns.length) = true := by
      rw [decide_eq_true_eq]
      omega
    obtain ⟨t₁, l₁, hcompare, h₁⟩ := h.compare_seen hpr hqr hpreal hqreal (some (k.collation c))
    have hreg₁ : register (p + c) b = .ok (p + c).toNat b := register_run hp0 (by omega)
    have hreg₂ : register (q + c) b = .ok (q + c).toNat b := register_run hq0 (by omega)
    have hstep : Tracked.compareVectors k p q (n + 1) c b = _ :=
      (bind_of_ok (by rw [hcolumn]; rfl)).trans ((bind_of_ok hreg₁).trans ((bind_of_ok hreg₂).trans
        (bind_of_ok hcompare)))
    rw [hstep, vector, vector, Value.seenVector]
    cases ho : (b.cellAt (p + c).toNat).value.seen (k.collation c) (b.cellAt (q + c).toNat).value with
    | eq =>
      have hadd : c + 1 + n = c + (n + 1) := by omega
      obtain ⟨t₂, l₂, hrest, h₂⟩ := ih (b := b.knowing t₁ l₁) (c := c + 1) h₁ (by omega) (hadd ▸ hp) (hadd ▸ hq)
      rw [knowing_knowing] at hrest h₂
      rw [vector_knowing, vector_knowing] at hrest
      refine ⟨t₂, l₂, ?_, h₂⟩
      rw [Option.getD_some, ho]
      exact hrest
    | lt =>
      refine ⟨t₁, l₁, ?_, h₁⟩
      rw [Option.getD_some, ho]
      rfl
    | gt =>
      refine ⟨t₁, l₁, ?_, h₁⟩
      rw [Option.getD_some, ho]
      rfl

/-- The order of two registers that the tracked rule answers. -/
def order? (b : Bank) (coll : Collation) (i j : Nat) : Option Ordering :=
  (Bank.compare i j (some coll)).run' b

theorem Trusts.order?_eq (h : b.Trusts t known) (hi : b.Comparable i) (hj : b.Comparable j)
    (coll : Collation) :
    b.order? coll i j = some ((b.cellAt i).value.seen coll (b.cellAt j).value) := by
  obtain ⟨t', l, hrun, _⟩ := h.obeys.compare_seen hi.1 hj.1 hi.2 hj.2 (some coll)
  exact answer_of_ok hrun

end Bank

namespace Value

variable {coll : Collation} {k : KeyInfo} {u v w : Value}

theorem seen_ne_gt : v.seen coll w ≠ .gt ↔
    ¬ (v.rank = 1 ∧ 2 ≤ w.rank) ∧ (v.compare coll w).isLE = true := by
  unfold seen
  rw [isNumber_eq, isString_eq, Ordering.isLE_iff_ne_gt]
  by_cases h : v.rank = 1 ∧ 2 ≤ w.rank
  · simp [h.1, h.2]
  · have hclash : (decide (v.rank = 1) && decide (2 ≤ w.rank)) = false := by simpa using h
    simp [hclash, h]

/-- A number is never seen before a string, so that what is seen in order is transitive. -/
theorem seen_trans [TransCmp coll.compare] (hw : w.isReal = false) (huw : u.seen coll w ≠ .gt)
    (hwv : w.seen coll v ≠ .gt) : u.seen coll v ≠ .gt := by
  rw [seen_ne_gt] at *
  refine ⟨fun ⟨hu, hv⟩ => ?_, isLE_compare_trans hw huw.2 hwv.2⟩
  -- the one between them would have to be no value, which is before both
  have hle := isLE_compare_iff.mp huw.2
  omega

theorem seen_swap (v w : Value) : w.seen coll v =
    if v.isNumber && w.isString || v.isString && w.isNumber then .gt else (v.seen coll w).swap := by
  unfold seen
  simp only [isNumber_eq, isString_eq]
  by_cases hvw : v.rank = 1 ∧ 2 ≤ w.rank
  · have hgt : w.compare coll v = .gt := by
      rw [compare_swap, compare_of_rank_lt (by omega)]
      rfl
    simp [hvw.1, hvw.2, hgt]
  · by_cases hwv : w.rank = 1 ∧ 2 ≤ v.rank
    · simp [hwv.1, hwv.2]
    · have h₁ : (decide (v.rank = 1) && decide (2 ≤ w.rank)) = false := by simpa using hvw
      have h₂ : (decide (w.rank = 1) && decide (2 ≤ v.rank)) = false := by simpa using hwv
      rw [h₁, h₂, Bool.and_comm, h₂, compare_swap w v]
      rfl

theorem seen_of_clash (h : (v.isNumber && w.isString || v.isString && w.isNumber) = true) :
    v.seen coll w = .gt := by
  rw [seen_swap w v, if_pos]
  rwa [Bool.or_comm, Bool.and_comm w.isString, Bool.and_comm w.isNumber]

theorem seen_eq_eq : v.seen coll w = .eq ↔ v.compare coll w = .eq := by
  unfold seen
  split
  · rename_i h
    simp only [isNumber_eq, isString_eq, Bool.and_eq_true, decide_eq_true_eq] at h
    rw [compare_of_rank_lt (by omega)]
    simp
  · rfl

theorem seenVector_cons_of_eq {c : Nat} {vs ws : List Value} (h : v.compare (k.collation c) w = .eq) :
    seenVector k c (v :: vs) (w :: ws) = seenVector k (c + 1) vs ws := by
  rw [seenVector, seen_eq_eq.mpr h]

theorem seenVector_cons_of_ne {c : Nat} {vs ws : List Value} (h : v.compare (k.collation c) w ≠ .eq) :
    seenVector k c (v :: vs) (w :: ws) =
      if k.descending c then (v.seen (k.collation c) w).swap else v.seen (k.collation c) w := by
  have hseen : v.seen (k.collation c) w ≠ .eq := fun heq => h (seen_eq_eq.mp heq)
  rw [seenVector]
  cases ho : v.seen (k.collation c) w with
  | eq => exact absurd ho hseen
  | lt => rfl
  | gt => rfl

theorem compare_ne_eq_swap (h : v.compare coll w ≠ .eq) : w.compare coll v ≠ .eq := by
  rw [compare_swap]
  cases hc : v.compare coll w with
  | eq => exact absurd hc h
  | lt => exact nofun
  | gt => exact nofun

/-- Swapped vectors are seen in opposite orders, unless a number and a string decide. -/
theorem seenVector_swap (vs ws : List Value) (c : Nat) : seenVector k c ws vs =
    if clashes k c vs ws then seenVector k c vs ws else (seenVector k c vs ws).swap := by
  induction vs generalizing ws c with
  | nil => cases ws <;> rfl
  | cons v vs ih =>
    cases ws with
    | nil => rfl
    | cons w ws =>
      rw [clashes]
      by_cases heq : v.compare (k.collation c) w = .eq
      · have heq' : w.compare (k.collation c) v = .eq := by rw [compare_swap, heq]; rfl
        rw [if_pos heq, seenVector_cons_of_eq heq, seenVector_cons_of_eq heq']
        exact ih ws (c + 1)
      · rw [if_neg heq, seenVector_cons_of_ne heq, seenVector_cons_of_ne (compare_ne_eq_swap heq), seen_swap]
        cases hclash : v.isNumber && w.isString || v.isString && w.isNumber with
        | true => rw [seen_of_clash hclash, if_pos rfl, if_pos rfl]
        | false =>
          rw [if_neg Bool.false_ne_true, if_neg Bool.false_ne_true]
          cases k.descending c <;> rfl

theorem seenVector_of_clashes {vs ws : List Value} {c : Nat} (h : clashes k c vs ws = true) :
    seenVector k c vs ws ≠ .eq := by
  induction vs generalizing ws c with
  | nil => cases h
  | cons v vs ih =>
    cases ws with
    | nil => cases h
    | cons w ws =>
      rw [clashes] at h
      by_cases heq : v.compare (k.collation c) w = .eq
      · rw [if_pos heq] at h
        rw [seenVector_cons_of_eq heq]
        exact ih h
      · rw [if_neg heq] at h
        rw [seenVector_cons_of_ne heq, seen_of_clash h]
        cases k.descending c <;> exact nofun

end Value

namespace Machine

variable {m : Machine} {t : Sheet} {known : Nat → Bool} {i : Instruction} {k : KeyInfo} {pc : Int}

/-- A comparison of two vectors of registers that the tracked rule can make. -/
structure Vectors (m : Machine) (i : Instruction) (k : KeyInfo) : Prop where
  op : i.op = .compare
  key : i.p4 = .key k
  plain : i.option 0 = false
  wide : 0 < i.p3
  columns : i.p3.toNat ≤ k.columns.length
  left : m.bank.Spans i.p1 i.p3.toNat
  right : m.bank.Spans i.p2 i.p3.toNat

/-- Both vectors are compared and the jump is taken by the tracked rules. -/
def Comparing (m : Machine) : Prop :=
  m.status.tracked .compare = true ∧ m.status.tracked .jump = true

theorem Vectors.step_run (hv : m.Vectors i k) (hc : m.Comparing) (h : m.bank.Trusts t known) (pc : Int) :
    ∃ t' l, step pc i m = .ok .next { m.withBank (m.bank.knowing t' l) with
      order := Value.seenVector k 0 (m.bank.vector i.p1 i.p3.toNat 0) (m.bank.vector i.p2 i.p3.toNat 0) } := by
  have hadd : 0 + i.p3.toNat = i.p3.toNat := Nat.zero_add _
  obtain ⟨t', l, hrun, _⟩ := h.obeys.compareVectors_run (c := 0) (by rw [hadd]; exact hv.columns)
    (hadd ▸ hv.left) (hadd ▸ hv.right)
  refine ⟨t', l, ?_⟩
  have hkey : i.p4.key? = some k := by rw [hv.key]; rfl
  have hcompare : Tracked.compare i m = .ok () { m.withBank (m.bank.knowing t' l) with
      order := Value.seenVector k 0 (m.bank.vector i.p1 i.p3.toNat 0) (m.bank.vector i.p2 i.p3.toNat 0) } := by
    simp only [Tracked.compare, hv.plain, hv.wide, hkey, decide_true]
    exact (bind_of_ok rfl).trans ((bind_of_ok rfl).trans (bind_of_ok (lift_of_ok hrun)))
  have hagree : agreeing .compare (Tracked.compare i) (Direct.compare i) m = Tracked.compare i m := by
    simp only [agreeing, bind_of_ok get_run, Family.partner, hc.2, choose, hc.1]
    rfl
  simp only [step, hv.op, thenNext]
  exact bind_of_ok (hagree.trans hcompare)

theorem jump_run (hop : i.op = .jump) (hc : m.Comparing) :
    step pc i m = .ok (.jump (Tracked.target i m.order)) { m with order := .eq } := by
  simp only [step, hop, agreeing, bind_of_ok get_run, Family.partner, hc.1, choose, hc.2]
  rfl

def swapped (i : Instruction) : Instruction := { i with p1 := i.p2, p2 := i.p1 }

theorem Vectors.swapped (hv : m.Vectors i k) : m.Vectors (swapped i) k :=
  ⟨hv.op, hv.key, hv.plain, hv.wide, hv.columns, hv.right, hv.left⟩

/-- The direct rule sees the order of values in registers that are not doubles: no value, then
numbers, then texts, then blobs. The tracked rule answers the same, but that a number is behind a string;
so two registers or vectors that are swapped are in opposite orders, unless a number and a string
decide, which are found out of order either way round. -/
theorem tracked_order_but_for_number_and_string (h : m.bank.Trusts t known) (hc : m.Comparing) :
    (∀ coll a b, m.bank.Comparable a → m.bank.Comparable b →
      ∃ o, Cell.compare (some coll) (m.bank.cellAt a) (m.bank.cellAt b) = o ∧
        Cell.compare (some coll) (m.bank.cellAt b) (m.bank.cellAt a) = o.swap ∧
        ((m.bank.cellAt a).value.rank < (m.bank.cellAt b).value.rank → o = .lt) ∧
        m.bank.order? coll a b = some
          (if (m.bank.cellAt a).value.isNumber && (m.bank.cellAt b).value.isString then .gt else o)) ∧
    (∀ coll a b c, TransCmp coll.compare →
      m.bank.Comparable a → m.bank.Comparable b → m.bank.Comparable c →
      m.bank.order? coll a b ≠ some .gt → m.bank.order? coll b c ≠ some .gt →
      m.bank.order? coll a c ≠ some .gt) ∧
    ∀ pc i k, m.Vectors i k → ∃ m₁ m₂,
      step pc i m = .ok .next m₁ ∧ step pc (swapped i) m = .ok .next m₂ ∧
      (if Value.clashes k 0 (m.bank.vector i.p1 i.p3.toNat 0) (m.bank.vector i.p2 i.p3.toNat 0) then
        m₂.order = m₁.order ∧ m₁.order ≠ .eq else m₂.order = m₁.order.swap) ∧
      ∀ pc j, j.op = .jump → ∃ m₃ m₄,
        step pc j m₁ = .ok (.jump (Tracked.target j m₁.order)) m₃ ∧
        step pc j m₂ = .ok (.jump (Tracked.target j m₂.order)) m₄ := by
  refine ⟨fun coll a b ha hb => ?_, fun coll a b c hcoll ha hb hc hab hbc => ?_, fun pc i k hv => ?_⟩
  · have hab := Cell.compare_value (some coll) ha.2 hb.2
    have hba := Cell.compare_value (some coll) hb.2 ha.2
    rw [Option.getD_some] at hab hba
    refine ⟨_, rfl, ?_, fun hrank => ?_, ?_⟩
    · rw [hab, hba, ← Value.compare_swap]
    · rw [hab, Value.compare_of_rank_lt hrank]
    · rw [hab, h.order?_eq ha hb]
      rfl
  · rw [h.order?_eq ha hb, Ne, Option.some.injEq] at hab
    rw [h.order?_eq hb hc, Ne, Option.some.injEq] at hbc
    rw [h.order?_eq ha hc, Ne, Option.some.injEq]
    exact Value.seen_trans (Cell.isReal_value hb.2) hab hbc
  · obtain ⟨t₁, l₁, h₁⟩ := hv.step_run hc h pc
    obtain ⟨t₂, l₂, h₂⟩ := hv.swapped.step_run hc h pc
    refine ⟨_, _, h₁, h₂, ?_, fun pc j hj => ⟨_, _, jump_run hj hc, jump_run hj hc⟩⟩
    have hswap := Value.seenVector_swap (k := k) (m.bank.vector i.p1 i.p3.toNat 0)
      (m.bank.vector i.p2 i.p3.toNat 0) 0
    split
    · rename_i hclash
      rw [if_pos hclash] at hswap
      exact ⟨hswap, Value.seenVector_of_clashes hclash⟩
    · rename_i hclash
      rw [if_neg hclash] at hswap
      exact hswap

/-- Registers with 7, 1, 7 and `a`, to be compared as two vectors of two columns. -/
def twoRows : Machine where
  bank := Bank.ofCells #[.null, .ofInt 7, .ofInt 1, .ofInt 7, .ofBytes .onlyStr 0 [97]] true true 1
  program := #[]
  status := { useFlagCache := true }
  database := default
  cursors := #[]
  once := #[]
  registers := 4
  width := 0

theorem tracked_order_but_for_number_and_string_twoRows :
    let i : Instruction := ⟨.compare, 1, 3, 2, .key ⟨[(.binary, true), (.nocase, false)], 0⟩, 0⟩
    let j : Instruction := ⟨.jump, 10, 20, 30, .none, 0⟩
    twoRows.bank.order? .binary 2 4 = some .gt ∧ twoRows.bank.order? .binary 4 2 = some .gt ∧
      ∃ m₁ m₂ target m₃ m₄, step 0 i twoRows = .ok .next m₁ ∧ step 0 (swapped i) twoRows = .ok .next m₂ ∧
        step 1 j m₁ = .ok (.jump target) m₃ ∧ step 1 j m₂ = .ok (.jump target) m₄ := by
  intro i j
  have hcomparable (r : Nat) (hr : r < 5) : twoRows.bank.Comparable r := by
    refine ⟨hr, ?_⟩
    interval_cases r <;> rfl
  have hspans (p : Int) (hp : p = 1 ∨ p = 3) : twoRows.bank.Spans p 2 := by
    intro c hc
    exact ⟨by omega, hcomparable _ (by omega)⟩
  have hvectors : twoRows.Vectors i ⟨[(.binary, true), (.nocase, false)], 0⟩ :=
    ⟨rfl, rfl, by decide, by decide, by decide, hspans 1 (.inl rfl), hspans 3 (.inr rfl)⟩
  obtain ⟨hpairs, _, hvector⟩ := tracked_order_but_for_number_and_string
    (m := twoRows) (Bank.trusts_ofCells _ true 1) ⟨rfl, rfl⟩
  obtain ⟨_, _, _, _, horder⟩ := hpairs .binary 2 4 (hcomparable 2 (by decide)) (hcomparable 4 (by decide))
  obtain ⟨_, heq, _, _, horder'⟩ := hpairs .binary 4 2 (hcomparable 4 (by decide)) (hcomparable 2 (by decide))
  obtain ⟨m₁, m₂, hstep₁, hstep₂, hsame, hjump⟩ := hvector 0 i _ hvectors
  obtain ⟨m₃, m₄, hjump₁, hjump₂⟩ := hjump 1 j rfl
  have hclash : m₂.order = m₁.order ∧ m₁.order ≠ .eq := hsame
  refine ⟨horder, ?_, m₁, m₂, _, m₃, m₄, hstep₁, hstep₂, hjump₁, ?_⟩
  · rw [horder', ← heq]
    rfl
  · rw [hjump₂, hclash.1]

end Machine

end QueryMachine
