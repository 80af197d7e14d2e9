import Mathlib
import QueryMachine.Proofs.Columns
import QueryMachine.Proofs.Overflow
import QueryMachine.Proofs.Writing

/-!
Arithmetic on integers. The tracked rule stores the exact result, rounded to a double if it does not
fit, and divides to the floor; the direct rule wraps some products and divides towards zero.
-/

namespace QueryMachine

namespace Double

theorem isNaN_ofScaled (neg : Bool) (x : Scaled) : (ofScaled neg x).isNaN = false := by
  have hle := roundMagnitude_le x
  have hsign : signBit = 9223372036854775808 := rfl
  have hinf : infMagnitude = 9218868437227405312 := rfl
  simp only [ofScaled, ofMagnitude, isNaN, magnitude, UInt64.toNat_ofNat', hsign, hinf,
    decide_eq_false_iff_not] at hle ⊢
  split <;> omega

theorem magnitude_negate (x : Double) : x.negate.magnitude = x.magnitude := by
  have hsign : signBit = 2 ^ 63 := rfl
  have hbit : (9223372036854775808 : UInt64).toNat % 2 ^ 63 = 0 := by decide
  simp only [negate, magnitude, UInt64.toNat_xor, hsign, Nat.xor_mod_two_pow, hbit, Nat.xor_zero]

section Finite

variable {x y : Double} (hx : x.isFinite = true) (hy : y.isFinite = true)

include hx hy

theorem isNaN_add : (x.add y).isNaN = false := by
  simp only [add, isNaN_of_isFinite hx, isNaN_of_isFinite hy, isInf_of_isFinite hx, isInf_of_isFinite hy,
    Bool.false_eq_true, if_false]
  split
  · exact isNaN_ofScaled _ _
  · split
    · exact isNaN_ofScaled _ _
    · exact isNaN_ofScaled _ _
    · rfl

theorem isNaN_sub : (x.sub y).isNaN = false := by
  rw [sub, isNaN_of_isFinite hy, if_neg Bool.false_ne_true]
  exact isNaN_add hx (by rwa [isFinite, magnitude_negate])

theorem isNaN_mul : (x.mul y).isNaN = false := by
  simp only [mul, isNaN_of_isFinite hx, isNaN_of_isFinite hy, isInf_of_isFinite hx, isInf_of_isFinite hy,
    Bool.false_eq_true, Bool.or_self, if_false]
  exact isNaN_ofScaled _ _

end Finite

end Double

inductive Arith.Result
  | null
  | int (n : Int)
  | real (x : Double)
  deriving Repr, DecidableEq

namespace Cell

def asDouble (c : Cell) (x : Double) : Cell := (c.withPayload x.bits).withFlags (c.flags.retype .onlyReal)

/-- What a register is after a result has been left in it. -/
def Takes (c : Cell) : Arith.Result → Cell → Prop
  | .null, d => d.view = .null
  | .int n, d => d = c.asInt n
  | .real x, d => x.isNaN = false ∧ d = c.asDouble x

theorem data_setNull (c : Cell) : c.setNull.data = c.data ∧ c.setNull.flags.term = false := by
  unfold setNull
  split <;> exact ⟨rfl, rfl⟩

end Cell

namespace Bank

variable {b : Bank} {r : Nat}

/-- A result is left in one register and nothing else is changed. -/
structure Takes (b : Bank) (r : Nat) (result : Arith.Result) (b' : Bank) : Prop where
  self : (b.cellAt r).Takes result (b'.cellAt r)
  others : ∀ j, j ≠ r → b'.cellAt j = b.cellAt j

/-- The rule gets through and leaves a result in one register. -/
def Leaves (b : Bank) (rule : BankM Unit) (r : Nat) (result : Arith.Result) : Prop :=
  ∃ b', rule b = .ok () b' ∧ b.Takes r result b'

theorem takes_withCell (hr : r < b.cells.size) (result : Arith.Result) {c : Cell} (hc : (b.cellAt r).Takes result c)
    (t : Sheet) (l : Ledger) : b.Takes r result ((b.withCell r c).knowing t l) where
  self := by rwa [cellAt_knowing, cellAt_withCell_self hr]
  others j hj := by rw [cellAt_knowing, cellAt_withCell hr, if_neg (Ne.symm hj)]

theorem Takes.of_knowing {result : Arith.Result} {t : Sheet} {l : Ledger} {b' : Bank}
    (h : (b.knowing t l).Takes r result b') : b.Takes r result b' := ⟨h.self, h.others⟩

namespace Obeys

theorem retype_run (h : b.Obeys Fact.Honest) (hr : r < b.reach) (kind : Flags) :
    ∃ t l, retype r kind b =
        .ok () ((b.withCell r ((b.cellAt r).withFlags ((b.cellAt r).flags.retype kind))).knowing t l) ∧
      ((b.withCell r ((b.cellAt r).withFlags ((b.cellAt r).flags.retype kind))).knowing t l).Obeys Fact.Honest := by
  obtain ⟨t₁, l₁, hlook, h₁⟩ := h.flags_run Fact.law_honest hr
  obtain ⟨t₂, l₂, hmark, h₂⟩ := h₁.setFlags_run Fact.law_honest hr ((b.cellAt r).flags.retype kind)
    fun f _ => f.honest_noteFlags _ _
  rw [withCell_knowing, knowing_knowing, cellAt_knowing] at hmark h₂
  exact ⟨t₂, l₂, (bind_of_ok hlook).trans hmark, h₂⟩

theorem takes_int (h : b.Obeys Fact.Honest) (hr : r < b.reach) {n : Int} (hn : fitsWord n = true) (constant : Bool) :
    ∃ b', (do setInt r n constant; retype r .onlyInt) b = .ok () b' ∧ b.Takes r (.int n) b' := by
  obtain ⟨t, hk, hreach, ht⟩ := id h
  obtain ⟨b', hrun, t', l, rfl, hk', hs⟩ := hk.setInt_run r hn constant
  have h₁ : ((b.withCell r ((b.cellAt r).withPayload (intToWord n))).knowing t' l).Obeys Fact.Honest := by
    refine of_update (Heeds.of_noted (fun _ => Fact.law_honest) Fact.law_honest hk hreach ht hr hk' hs ?_ ?_)
    · cases constant <;> exact hk.plain.fact r
    · cases constant <;> exact ht r hr
  obtain ⟨t₂, l₂, hmark, -⟩ := h₁.retype_run hr .onlyInt
  rw [cellAt_knowing, cellAt_withCell_self (h.lt_size hr), withCell_knowing, knowing_knowing, withCell_withCell] at hmark
  exact ⟨_, (bind_of_ok hrun).trans hmark, takes_withCell (h.lt_size hr) (.int n) rfl t₂ l₂⟩

theorem takes_real (h : b.Obeys Fact.Honest) (hr : r < b.reach) {x : Double} (hx : x.isNaN = false) :
    ∃ b', (do setReal r (.real x) false; retype r .onlyReal) b = .ok () b' ∧ b.Takes r (.real x) b' := by
  obtain ⟨t, hk, hreach, ht⟩ := id h
  obtain ⟨b', hrun, t', l, rfl, hk', hs⟩ := hk.setReal_run r (x := .real x) fun hc : false = true => nomatch hc
  have h₁ : ((b.withCell r ((b.cellAt r).withPayload x.bits)).knowing t' l).Obeys Fact.Honest :=
    of_update (Heeds.of_noted (fun _ => Fact.law_honest) Fact.law_honest hk hreach ht hr hk' hs (hk.plain.fact r)
      (ht r hr))
  obtain ⟨t₂, l₂, hmark, -⟩ := h₁.retype_run hr .onlyReal
  rw [cellAt_knowing, cellAt_withCell_self (h.lt_size hr), withCell_knowing, knowing_knowing, withCell_withCell] at hmark
  exact ⟨_, (bind_of_ok hrun).trans hmark, takes_withCell (h.lt_size hr) (.real x) ⟨hx, rfl⟩ t₂ l₂⟩

theorem takes_null (h : b.Obeys Fact.Honest) (hr : r < b.reach) :
    ∃ b', setNull r b = .ok () b' ∧ b.Takes r .null b' := by
  obtain ⟨t₁, l₁, hlook₁, h₁⟩ := h.flags_run Fact.law_honest hr
  obtain ⟨t₂, l₂, hlook₂, h₂⟩ := h₁.flags_run Fact.law_honest hr
  rw [cellAt_knowing, knowing_knowing] at hlook₂
  rw [knowing_knowing] at h₂
  have hlt := h.lt_size hr
  rw [setNull, bind_of_ok hlook₁, bind_of_ok hlook₂]
  cases hc : (b.cellAt r).flags.frame || (b.cellAt r).flags.rowSet with
  | true =>
    obtain ⟨t₃, l₃, hdirect, -⟩ := h₂.direct_run Fact.law_honest hr fun _ => Cell.setNull
    refine ⟨_, hdirect, ?_, fun j hj => ?_⟩
    · rw [cellAt_knowing, cellAt_put (b := (b.knowing t₂ l₂).renewed) hlt, if_pos rfl]
      exact Machine.view_setNull _
    · -- no string is written, so that no other register sees anything of it
      have hsilent : (b.cellAt r).setNull.overwrites (b.cellAt r) = false := by
        rw [Cell.overwrites, (Cell.data_setNull _).1, (Cell.data_setNull _).2, bne_self_eq_false]
        simp
      rw [cellAt_knowing, cellAt_put (b := (b.knowing t₂ l₂).renewed) hlt, if_neg (Ne.symm hj)]
      exact if_neg (by rw [← Bool.not_eq_true] at hsilent; exact hsilent)
  | false =>
    obtain ⟨t₃, l₃, hmark, -⟩ := h₂.retype_run hr .onlyNull
    rw [withCell_knowing, knowing_knowing, cellAt_knowing] at hmark
    exact ⟨_, hmark, takes_withCell hlt .null (by rfl) t₃ l₃⟩

theorem isConstantInt_run (h : b.Obeys Fact.Honest) (r : Nat) : ∃ p, isConstantInt r b = .ok p b := by
  obtain ⟨t, hk, -, -⟩ := h
  refine ⟨(t.fact r).isConstantInt, ?_⟩
  simp only [isConstantInt, bind_of_ok get_run, hk.indexed, if_true, bind_of_ok hk.current_run]
  rfl

end Obeys

end Bank

structure Cell.IsInt (c : Cell) (n : Int) : Prop where
  int : c.flags.int = true
  real : c.flags.real = false
  null : c.flags.null = false
  value : c.int = n

theorem Cell.IsInt.fits {c : Cell} {n : Int} (h : c.IsInt n) : fitsWord n = true := h.value ▸ fitsWord_wordToInt _

theorem Cell.IsInt.realValue {c : Cell} {n : Int} (h : c.IsInt n) : c.realValue = .ofInt n := by
  rw [Cell.realValue, h.real, h.int, if_neg Bool.false_ne_true, if_pos rfl, h.value]

theorem Cell.IsInt.numericType {c : Cell} {n : Int} (h : c.IsInt n) : c.numericType = (.onlyInt, c) := by
  rw [Cell.numericType, Flags.numeric, Flags.numericKind, h.int, h.real]
  rfl

theorem Cell.IsInt.toInt_payload {c : Cell} {n : Int} (h : c.IsInt n) : c.payload.toInt64.toInt = n := h.value

namespace Arith

theorem fmod_bounds {x : Int} (hx : x ≠ 0) (y : Int) : 0 ≤ y.fmod x ∧ y.fmod x < x ∨ x < y.fmod x ∧ y.fmod x ≤ 0 := by
  have hnonneg := Int.emod_nonneg y hx
  have hlt := Int.emod_lt y hx
  rw [Int.fmod_eq_emod]
  split
  · rename_i h
    obtain h | h := h
    · omega
    · rw [Int.emod_eq_zero_of_dvd h]
      omega
  · rename_i h
    obtain ⟨h0, hdvd⟩ := not_or.mp h
    have := mt Int.dvd_of_emod_eq_zero hdvd
    omega

theorem fmod_divisor {x : Int} (y : Int) : y.fmod (divisor x) = y.fmod x := by
  rw [divisor]
  split
  · rename_i h
    rw [h, Int.fmod_one]
    have := fmod_bounds (x := -1) (by decide) y
    omega
  · rfl

theorem tmod_divisor {x : Int} (y : Int) : y.tmod (divisor x) = y.tmod x := by
  rw [divisor]
  split
  · rename_i h
    rw [h, Int.tmod_one, Int.tmod_neg, Int.tmod_one]
  · rfl

theorem fitsWord_fdiv {x y : Int} (hx : x ≠ 0) (hy : fitsWord y = true) (h : ¬ (y = minWord ∧ x = -1)) :
    fitsWord (y.fdiv x) = true := by
  have hy' := fitsWord_iff.mp hy
  have hle := Int.natAbs_fdiv_le_natAbs y x
  have hlaw := Int.mul_fdiv_add_fmod y x
  have hmod := fmod_bounds hx y
  refine fitsWord_iff.mpr ⟨by omega, ?_⟩
  by_contra hq
  have hq : y.fdiv x = 9223372036854775808 := by omega
  rw [hq] at hlaw
  exact h ⟨by show y = -9223372036854775808; omega, by omega⟩

theorem fitsWord_fmod {x : Int} (hx : x ≠ 0) (hfits : fitsWord x = true) (y : Int) : fitsWord (y.fmod x) = true := by
  have := fitsWord_iff.mp hfits
  have := fmod_bounds hx y
  exact fitsWord_iff.mpr (by omega)

theorem fdiv_fmod_eq {x : Int} (hx : x ≠ 0) (y : Int) :
    (x ∣ y ∨ y.sign = x.sign → y.fdiv x = y.tdiv x ∧ y.fmod x = y.tmod x) ∧
    (¬ (x ∣ y ∨ y.sign = x.sign) → y.fdiv x = y.tdiv x - 1 ∧ y.fmod x = y.tmod x + x) := by
  rw [Int.fdiv_eq_tdiv, Int.fmod_eq_tmod]
  by_cases hdvd : x ∣ y
  · simp [hdvd]
  · have hy : y ≠ 0 := fun h => hdvd (h ▸ dvd_zero x)
    simp only [hdvd, false_or, if_false]
    rcases lt_or_gt_of_ne hx with hx' | hx' <;> rcases lt_or_gt_of_ne hy with hy' | hy' <;>
      simp [Int.sign_eq_one_of_pos, Int.sign_eq_neg_one_of_neg, hx', hy', not_le.mpr, le_of_lt]

end Arith

namespace Tracked

/-- What is left of two integers: the exact result, as a double if it does not fit. -/
def integers (op : Arith) (x y : Int) : Arith.Result :=
  match arithInt op x y with
  | none => .null
  | some n => if fitsWord n then .int n else .real (.ofInt n)

theorem arithReal_beyond {op : Arith} {x y n : Int} (hx : fitsWord x = true) (hy : fitsWord y = true)
    (hn : arithInt op x y = some n) (hfits : fitsWord n = false) :
    arithReal op (.int x) (.int y) = pure (some (.ofInt n)) := by
  cases op with
  | add | subtract | multiply =>
    cases hn
    rfl
  | divide =>
    simp only [arithInt] at hn
    split at hn
    · cases hn
    · rename_i h0
      cases hn
      by_cases h : y = minWord ∧ x = -1
      · obtain ⟨rfl, rfl⟩ := h
        exact congrArg (fun z => pure (some z)) (by decide +kernel)
      · rw [Arith.fitsWord_fdiv h0 hy h] at hfits
        cases hfits
  | remainder =>
    simp only [arithInt] at hn
    split at hn
    · cases hn
    · rename_i h0
      cases hn
      rw [Arith.fmod_divisor, Arith.fitsWord_fmod h0 hx] at hfits
      cases hfits

end Tracked

namespace Bank

variable {b : Bank} {k : Instruction} {r : Nat} {x y n : Int}

/-- The operands are integers in registers, and the result goes to a register. -/
structure Integers (b : Bank) (k : Instruction) (x y : Int) : Prop where
  left : 0 ≤ k.p1 ∧ k.p1.toNat < b.reach ∧ (b.cellAt k.p1.toNat).IsInt x
  right : 0 ≤ k.p2 ∧ k.p2.toNat < b.reach ∧ (b.cellAt k.p2.toNat).IsInt y
  out : 0 ≤ k.p3 ∧ k.p3.toNat < b.reach

theorem Obeys.numericType_run (h : b.Obeys Fact.True) (hr : r < b.reach) (hc : (b.cellAt r).IsInt n) :
    ∃ t l, numericType r b = .ok .onlyInt (b.knowing t l) ∧ (b.knowing t l).Obeys Fact.True := by
  obtain ⟨t, l, hlook, h₁⟩ := h.flags_run Fact.law_true hr
  refine ⟨t, l, (bind_of_ok hlook).trans ?_, h₁⟩
  rw [Flags.numeric, Flags.numericKind, hc.int, hc.real]
  rfl

theorem Obeys.realValue_run (h : b.Obeys Fact.True) (hr : r < b.reach) (hc : (b.cellAt r).IsInt n) :
    ∃ t l, realValue r b = .ok (.int n) (b.knowing t l) ∧ (b.knowing t l).Obeys Fact.True := by
  obtain ⟨t, l, hlook, h₁⟩ := h.flags_run Fact.law_true hr
  refine ⟨t, l, (bind_of_ok hlook).trans ?_, h₁⟩
  rw [hc.int, hc.real, if_neg Bool.false_ne_true, if_pos rfl, bind_of_ok (h₁.int_run hr), cellAt_knowing, hc.value]
  rfl

namespace Integers

theorem tracked_prelude (h : b.Integers k x y) (hb : b.Obeys Fact.True) (op : Arith) :
    ∃ t l, (b.knowing t l).Obeys Fact.True ∧ Tracked.arithmetic op k b =
      (match Tracked.arithInt op x y with
        | none => setNull k.p3.toNat
        | some n =>
          if fitsWord n then do
            let constant := (← isConstantInt k.p1.toNat) && (← isConstantInt k.p2.toNat)
            setInt k.p3.toNat n constant
            retype k.p3.toNat .onlyInt
          else Tracked.arithmetic.inReals op k.p1.toNat k.p2.toNat k.p3.toNat true) (b.knowing t l) := by
  obtain ⟨h1, hr1, hx⟩ := h.left
  obtain ⟨h2, hr2, hy⟩ := h.right
  obtain ⟨h3, hr3⟩ := h.out
  obtain ⟨t₁, l₁, hlook₁, hb₁⟩ := hb.flags_run Fact.law_true hr1
  obtain ⟨t₂, l₂, htype₁, hb₂⟩ := hb₁.numericType_run hr1 hx
  rw [knowing_knowing] at htype₁ hb₂
  obtain ⟨t₃, l₃, hlook₂, hb₃⟩ := hb₂.flags_run Fact.law_true hr2
  rw [knowing_knowing] at hlook₂ hb₃
  obtain ⟨t₄, l₄, htype₂, hb₄⟩ := hb₃.numericType_run hr2 hy
  rw [knowing_knowing] at htype₂ hb₄
  refine ⟨t₄, l₄, hb₄, ?_⟩
  rw [Tracked.arithmetic, bind_of_ok (register_run h1 (by omega)), bind_of_ok hlook₁, bind_of_ok htype₁,
    bind_of_ok (register_run (b := b.knowing t₂ l₂) h2 (by show k.p2 < b.reach; omega)), bind_of_ok hlook₂,
    bind_of_ok htype₂, bind_of_ok (register_run (b := b.knowing t₄ l₄) h3 (by show k.p3 < b.reach; omega)),
    cellAt_knowing, hx.null, hy.null, if_neg (by decide)]
  simp only [show (Flags.onlyInt.int && Flags.onlyInt.int) = true from rfl, if_true]
  refine (bind_of_ok (hb₄.int_run hr1)).trans ((bind_of_ok (hb₄.int_run hr2)).trans ?_)
  rw [cellAt_knowing, cellAt_knowing, hx.value, hy.value]
  cases Tracked.arithInt op x y <;> rfl

theorem tracked_run (h : b.Integers k x y) (hb : b.Obeys Fact.True) (op : Arith) :
    b.Leaves (Tracked.arithmetic op k) k.p3.toNat (Tracked.integers op x y) := by
  obtain ⟨t, l, hb₁, hrun⟩ := h.tracked_prelude hb op
  have honest : (b.knowing t l).Obeys Fact.Honest := hb₁.mono fun hf => hf.flags
  rw [Leaves, hrun, Tracked.integers]
  cases hn : Tracked.arithInt op x y with
  | none =>
    obtain ⟨b₁, hset, htakes⟩ := honest.takes_null h.out.2
    exact ⟨b₁, hset, htakes.of_knowing⟩
  | some n =>
    dsimp only
    cases hfits : fitsWord n with
    | true =>
      obtain ⟨p, hp⟩ := honest.isConstantInt_run k.p1.toNat
      obtain ⟨q, hq⟩ := honest.isConstantInt_run k.p2.toNat
      obtain ⟨b₁, hset, htakes⟩ := honest.takes_int h.out.2 hfits (p && q)
      exact ⟨b₁, (bind_of_ok hp).trans ((bind_of_ok hq).trans hset), htakes.of_knowing⟩
    | false =>
      obtain ⟨t₁, l₁, hleft, hb₂⟩ := hb₁.realValue_run h.left.2.1 h.left.2.2
      obtain ⟨t₂, l₂, hright, hb₃⟩ := hb₂.realValue_run h.right.2.1 h.right.2.2
      have honest' : ((b.knowing t l).knowing t₁ l₁ |>.knowing t₂ l₂).Obeys Fact.Honest := hb₃.mono fun hf => hf.flags
      have hnan : (Double.ofInt n).isNaN = false := Double.isNaN_ofScaled _ _
      obtain ⟨b₁, hset, htakes⟩ := honest'.takes_real h.out.2 hnan
      refine ⟨b₁, (bind_of_ok hleft).trans ((bind_of_ok hright).trans ?_), htakes.of_knowing.of_knowing.of_knowing⟩
      rw [Tracked.arithReal_beyond h.left.2.2.fits h.right.2.2.fits hn hfits, pure_bind]
      simpa only [hnan, Bool.false_eq_true, if_false, Bool.not_true, bind_pure_unit] using hset

end Integers

end Bank

namespace Direct

/-- What is left of two words; what is beyond them is computed with doubles. -/
def integers (op : Arith) (x y : Int64) : Arith.Result :=
  match arithWord op x y with
  | .nothing => .null
  | .word n => .int n.toInt
  | .beyond => .real ((arithReal op (.ofInt x.toInt) (.ofInt y.toInt)).getD .zero)

theorem arithReal_quotient : arithReal .divide (.ofInt (-1)) (.ofInt minWord) = some (.ofInt 9223372036854775808) := by
  decide +kernel

theorem arithReal_beyond {op : Arith} {x y : Int64} (h : arithWord op x y = .beyond) :
    ∃ z, arithReal op (.ofInt x.toInt) (.ofInt y.toInt) = some z ∧ z.isNaN = false := by
  have hfinite (w : Int64) : (Double.ofInt w.toInt).isFinite = true :=
    Double.isFinite_ofInt (fitsWord_iff.mpr (Word.inside w))
  cases op with
  | add => exact ⟨_, rfl, Double.isNaN_add (hfinite y) (hfinite x)⟩
  | subtract => exact ⟨_, rfl, Double.isNaN_sub (hfinite y) (hfinite x)⟩
  | multiply => exact ⟨_, rfl, Double.isNaN_mul (hfinite y) (hfinite x)⟩
  | divide =>
    simp only [arithWord] at h
    split at h
    · cases h
    · split at h
      · rename_i hcase
        obtain ⟨rfl, rfl⟩ := hcase
        exact ⟨_, arithReal_quotient, by decide +kernel⟩
      · cases h
  | remainder =>
    simp only [arithWord] at h
    split at h <;> cases h

end Direct

namespace Bank.Integers

variable {b : Bank} {k : Instruction} {x y : Int}

theorem direct_run (h : b.Integers k x y) (hb : b.Obeys Fact.True) (op : Arith) :
    ∃ v w : Int64, v.toInt = x ∧ w.toInt = y ∧
      b.Leaves (Direct.arithmetic op k) k.p3.toNat (Direct.integers op v w) := by
  obtain ⟨h1, hr1, hx⟩ := h.left
  obtain ⟨h2, hr2, hy⟩ := h.right
  obtain ⟨h3, hr3⟩ := h.out
  have hstore (f : Cell → Cell) (result : Arith.Result)
      (hf : (b.cellAt k.p3.toNat).Takes result (f (b.cellAt k.p3.toNat))) :
      b.Leaves (modifyCell k.p3.toNat f) k.p3.toNat result := by
    refine ⟨_, modifyCell_run b _ f, ?_, fun j hj => ?_⟩
    · rwa [cellAt_withCell_self (hb.lt_size hr3)]
    · rw [cellAt_withCell (hb.lt_size hr3), if_neg (Ne.symm hj)]
  refine ⟨_, _, hx.toInt_payload, hy.toInt_payload, ?_⟩
  rw [Leaves, Direct.arithmetic, bind_of_ok (slot_run h1), bind_of_ok (cell_run b _), hx.numericType]
  dsimp only
  rw [bind_of_ok (setCell_run b _ _), withCell_cellAt, bind_of_ok (slot_run h2), bind_of_ok (cell_run b _),
    hy.numericType]
  dsimp only
  rw [bind_of_ok (setCell_run b _ _), withCell_cellAt, bind_of_ok (slot_run h3), bind_of_ok (cell_run b _),
    bind_of_ok (cell_run b _), hx.null, hy.null, if_neg (by decide), if_pos (by decide), Direct.integers]
  cases hword : Direct.arithWord op (b.cellAt k.p1.toNat).payload.toInt64 (b.cellAt k.p2.toNat).payload.toInt64 with
  | nothing => exact hstore _ .null (Machine.view_setNull _)
  | word n =>
    refine hstore _ (.int n.toInt) ?_
    show _ = Cell.asInt _ _
    rw [Cell.asInt, show intToWord n.toInt = n.toUInt64 from intToWord_wordToInt n.toUInt64]
    rfl
  | beyond =>
    obtain ⟨z, hz, hnan⟩ := Direct.arithReal_beyond hword
    rw [hx.toInt_payload, hy.toInt_payload] at hz
    refine hstore _ _ ?_
    rw [hx.toInt_payload, hy.toInt_payload, hz, Option.getD_some]
    refine ⟨hnan, ?_⟩
    rw [Direct.arithmetic.inReals, hx.realValue, hy.realValue, hz]
    simp only [hnan, Bool.false_eq_true, if_false, if_true]
    rfl

end Bank.Integers

namespace Direct

variable {op : Arith} {x y : Int64} {n : Int}

theorem integers_of_word? {o : Option Int64} (h : arithWord op x y = .ofWord? o) :
    ∃ z, integers op x y = match o.map Int64.toInt with
      | some n => .int n
      | none => .real z := by
  rw [integers, h]
  cases o with
  | none => exact ⟨_, rfl⟩
  | some n => exact ⟨.zero, rfl⟩

/-- What fits is exact, and of the rest only a product of two small factors is an integer. -/
theorem integers_ring
    (hop : (op, n) ∈ [(Arith.add, y.toInt + x.toInt), (.subtract, y.toInt - x.toInt), (.multiply, x.toInt * y.toInt)]) :
    ∃ z, integers op x y =
      if fitsWord n then .int n
      else if op = .multiply ∧ x.toInt.natAbs < 4294967296 ∧ y.toInt.natAbs < 4294967296 then .int (wrapWord n)
      else .real z := by
  simp only [List.mem_cons, Prod.mk.injEq, List.not_mem_nil, or_false] at hop
  obtain ⟨rfl, rfl⟩ | ⟨rfl, rfl⟩ | ⟨rfl, rfl⟩ := hop
  · obtain ⟨z, hz⟩ := integers_of_word? (rfl : arithWord .add x y = _)
    refine ⟨z, hz.trans ?_⟩
    rw [Word.sum?_eq]
    split_ifs <;> simp_all
  · obtain ⟨z, hz⟩ := integers_of_word? (rfl : arithWord .subtract x y = _)
    refine ⟨z, hz.trans ?_⟩
    rw [Word.difference?_eq]
    split_ifs <;> simp_all
  · obtain ⟨z, hz⟩ := integers_of_word? (rfl : arithWord .multiply x y = _)
    refine ⟨z, hz.trans ?_⟩
    rw [Word.product?_eq, Int.mul_comm y.toInt]
    by_cases hfits : fitsWord (x.toInt * y.toInt) = true
    · rw [if_pos hfits, if_pos hfits, wrapWord_of_fits hfits, ite_self]
    · rw [if_neg hfits, if_neg hfits]
      by_cases hsmall : y.toInt.natAbs < 4294967296 ∧ x.toInt.natAbs < 4294967296
      · rw [if_pos hsmall, if_pos ⟨rfl, hsmall.symm⟩]
      · rw [if_neg hsmall, if_neg fun h => hsmall h.2.symm]

theorem integers_of_zero (hx : x.toInt = 0) : integers .divide x y = .null ∧ integers .remainder x y = .null := by
  have hx : x = 0 := Int64.toInt_inj.mp hx
  rw [hx]
  exact ⟨rfl, rfl⟩

theorem integers_divide (hx : x.toInt ≠ 0) : integers .divide x y =
    if y.toInt = minWord ∧ x.toInt = -1 then .real (.ofInt 9223372036854775808) else .int (y.toInt.tdiv x.toInt) := by
  have hx0 : x ≠ 0 := fun h => hx (by rw [h]; rfl)
  have hcase : (x = -1 ∧ y = Int64.minValue) ↔ (y.toInt = minWord ∧ x.toInt = -1) := by
    rw [← Int64.toInt_inj, ← Int64.toInt_inj]
    exact and_comm
  rw [integers, arithWord, if_neg hx0]
  by_cases h : y.toInt = minWord ∧ x.toInt = -1
  · rw [if_pos (hcase.mpr h), if_pos h, h.1, h.2, arithReal_quotient]
    rfl
  · rw [if_neg (mt hcase.mp h), if_neg h]
    refine congrArg Arith.Result.int ?_
    by_cases hleast : y = Int64.minValue
    · exact Int64.toInt_div_of_ne_right y x fun hx => h (hcase.mp ⟨hx, hleast⟩)
    · exact Int64.toInt_div_of_ne_left y x hleast

theorem integers_remainder (hx : x.toInt ≠ 0) : integers .remainder x y = .int (y.toInt.tmod x.toInt) := by
  have hx0 : x ≠ 0 := fun h => hx (by rw [h]; rfl)
  rw [integers, arithWord, if_neg hx0]
  refine congrArg Arith.Result.int ?_
  have hdivisor : (if x = -1 then 1 else x : Int64).toInt = Arith.divisor x.toInt := by
    rw [Arith.divisor, apply_ite Int64.toInt]
    exact if_congr Int64.toInt_inj.symm rfl rfl
  rw [Int64.toInt_mod, hdivisor, Arith.tmod_divisor]

end Direct

namespace Tracked

variable {x y : Int}

theorem integers_of_zero (y : Int) : integers .divide 0 y = .null ∧ integers .remainder 0 y = .null := ⟨rfl, rfl⟩

theorem integers_divide (hx : x ≠ 0) (hy : fitsWord y = true) : integers .divide x y =
    if y = minWord ∧ x = -1 then .real (.ofInt 9223372036854775808) else .int (y.fdiv x) := by
  rw [integers, arithInt, if_neg hx]
  by_cases h : y = minWord ∧ x = -1
  · rw [if_pos h, h.1, h.2]
    rfl
  · rw [if_neg h]
    exact if_pos (Arith.fitsWord_fdiv hx hy h)

theorem integers_remainder (hx : x ≠ 0) (hfits : fitsWord x = true) : integers .remainder x y = .int (y.fmod x) := by
  rw [integers, arithInt, if_neg hx, Arith.fmod_divisor]
  exact if_pos (Arith.fitsWord_fmod hx hfits y)

end Tracked

namespace Bank

variable {b : Bank} {k : Instruction}

/-- A sum, a difference or a product is left exact if it fits, and rounded to a double if not. The direct
rule leaves the same integers and doubles where there are none, but wraps a product that does not fit of
two factors below `2 ^ 32`. -/
theorem ring_exact_or_rounded {x y n : Int} (h : b.Integers k x y) (hb : b.Obeys Fact.True) {op : Arith}
    (hop : (op, n) ∈ [(Arith.add, y + x), (.subtract, y - x), (.multiply, x * y)]) :
    b.Leaves (Tracked.arithmetic op k) k.p3.toNat (if fitsWord n then .int n else .real (.ofInt n)) ∧
    ∃ z, b.Leaves (Direct.arithmetic op k) k.p3.toNat
      (if fitsWord n then .int n
      else if op = .multiply ∧ x.natAbs < 4294967296 ∧ y.natAbs < 4294967296 then .int (wrapWord n)
      else .real z) := by
  constructor
  · have hexact : Tracked.arithInt op x y = some n := by
      simp only [List.mem_cons, Prod.mk.injEq, List.not_mem_nil, or_false] at hop
      obtain ⟨rfl, rfl⟩ | ⟨rfl, rfl⟩ | ⟨rfl, rfl⟩ := hop
      · rfl
      · rfl
      · rw [Int.mul_comm]
        rfl
    have hrun := h.tracked_run hb op
    rwa [Tracked.integers, hexact] at hrun
  · obtain ⟨v, w, rfl, rfl, hrun⟩ := h.direct_run hb op
    obtain ⟨z, hz⟩ := Direct.integers_ring hop
    exact ⟨z, hz ▸ hrun⟩

/-- Two factors below `2 ^ 32`. -/
def factors : Bank := ofCells #[.ofInt 4294967295, .ofInt 4294967295, .null] true true 0

theorem integers_factors : factors.Integers ⟨.multiply, 0, 1, 2, .none, 0⟩ 4294967295 4294967295 :=
  ⟨⟨by decide, by decide, rfl, rfl, rfl, by decide⟩, ⟨by decide, by decide, rfl, rfl, rfl, by decide⟩, by decide, by decide⟩

/-- Their product does not fit: it is rounded by the one rule and wrapped by the other. -/
theorem ring_exact_or_rounded_factors :
    factors.Leaves (Tracked.arithmetic .multiply ⟨.multiply, 0, 1, 2, .none, 0⟩) 2 (.real (.ofInt 18446744065119617025)) ∧
    factors.Leaves (Direct.arithmetic .multiply ⟨.multiply, 0, 1, 2, .none, 0⟩) 2 (.int (-8589934591)) := by
  have hrun := ring_exact_or_rounded integers_factors (trusts_ofCells _ true 0).obeys
    (n := 18446744065119617025) (.tail _ (.tail _ (.head _)))
  obtain ⟨htracked, z, hdirect⟩ := hrun
  exact ⟨htracked, hdirect⟩

/-- The two divisions of `n` by `d`. Nothing is left exactly without a divisor. The tracked rules leave a
quotient and a remainder of one division, the direct ones those of the division towards zero; they are the
same exactly if the division is even or the signs are. -/
theorem divisions_related {d n : Int} (h : b.Integers k d n) (hb : b.Obeys Fact.True) :
    ∃ q r q' r' : Arith.Result,
      b.Leaves (Tracked.arithmetic .divide k) k.p3.toNat q ∧ b.Leaves (Tracked.arithmetic .remainder k) k.p3.toNat r ∧
      b.Leaves (Direct.arithmetic .divide k) k.p3.toNat q' ∧ b.Leaves (Direct.arithmetic .remainder k) k.p3.toNat r' ∧
      (q = .null ↔ d = 0) ∧ (r = .null ↔ d = 0) ∧
      (d ≠ 0 → ∃ j, r = .int j ∧ j.natAbs < d.natAbs ∧
        if n = minWord ∧ d = -1 then ∃ z, q = .real z else ∃ i, q = .int i ∧ n = i * d + j) ∧
      (d ≠ 0 → r' = .int (n.tmod d) ∧ (¬ (n = minWord ∧ d = -1) → q' = .int (n.tdiv d)) ∧
        (q = q' ↔ d ∣ n ∨ n.sign = d.sign) ∧ (r = r' ↔ d ∣ n ∨ n.sign = d.sign) ∧
        (¬ (d ∣ n ∨ n.sign = d.sign) → q = .int (n.tdiv d - 1) ∧ r = .int (n.tmod d + d))) := by
  obtain ⟨v, w, rfl, rfl, hdivide⟩ := h.direct_run hb .divide
  obtain ⟨v', w', hv, hw, hremainder⟩ := h.direct_run hb .remainder
  obtain rfl := Int64.toInt_inj.mp hv
  obtain rfl := Int64.toInt_inj.mp hw
  refine ⟨_, _, _, _, h.tracked_run hb .divide, h.tracked_run hb .remainder, hdivide, hremainder, ?_⟩
  by_cases hd : v'.toInt = 0
  · obtain ⟨hq, hr⟩ := Tracked.integers_of_zero w'.toInt
    rw [hd, hq, hr]
    exact ⟨iff_of_true rfl rfl, iff_of_true rfl rfl, absurd rfl, absurd rfl⟩
  rw [Tracked.integers_divide hd h.right.2.2.fits, Tracked.integers_remainder hd h.left.2.2.fits,
    Direct.integers_divide hd, Direct.integers_remainder hd]
  generalize v'.toInt = d at hd
  generalize w'.toInt = n
  obtain ⟨hsame, hother⟩ := Arith.fdiv_fmod_eq hd n
  have hbounds := Arith.fmod_bounds hd n
  have hlaw := Int.mul_fdiv_add_fmod n d
  refine ⟨iff_of_false (by split_ifs <;> exact nofun) hd, iff_of_false nofun hd, fun _ => ⟨_, rfl, by omega, ?_⟩, fun _ =>
    ⟨rfl, fun hexc => if_neg hexc, ?_, ?_, fun hne => ?_⟩⟩
  · split_ifs
    · exact ⟨_, rfl⟩
    · exact ⟨_, rfl, by rw [Int.mul_comm]; exact hlaw.symm⟩
  · by_cases hexc : n = minWord ∧ d = -1
    · rw [if_pos hexc, if_pos hexc, hexc.2]
      exact iff_of_true rfl (.inl (Int.neg_dvd.mpr (one_dvd n)))
    · rw [if_neg hexc, if_neg hexc, Arith.Result.int.injEq]
      refine ⟨fun heq => by_contra fun hne => ?_, fun hyes => (hsame hyes).1⟩
      have := (hother hne).1
      omega
  · rw [Arith.Result.int.injEq]
    refine ⟨fun heq => by_contra fun hne => ?_, fun hyes => (hsame hyes).2⟩
    have := (hother hne).2
    omega
  · have hexc : ¬ (n = minWord ∧ d = -1) := fun hexc => hne (.inl (hexc.2 ▸ Int.neg_dvd.mpr (one_dvd n)))
    rw [if_neg hexc, (hother hne).1, (hother hne).2]
    exact ⟨rfl, rfl⟩

/-- Seven below zero over two. -/
def dividend : Bank := ofCells #[.ofInt 2, .ofInt (-7), .null] true true 0

/-- The one rule goes to the floor and the other one towards zero. -/
theorem divisions_related_dividend :
    ∃ q r q' r' : Arith.Result,
      dividend.Leaves (Tracked.arithmetic .divide ⟨.divide, 0, 1, 2, .none, 0⟩) 2 q ∧
      dividend.Leaves (Tracked.arithmetic .remainder ⟨.divide, 0, 1, 2, .none, 0⟩) 2 r ∧
      dividend.Leaves (Direct.arithmetic .divide ⟨.divide, 0, 1, 2, .none, 0⟩) 2 q' ∧
      dividend.Leaves (Direct.arithmetic .remainder ⟨.divide, 0, 1, 2, .none, 0⟩) 2 r' ∧
      q = .int (-4) ∧ r = .int 1 ∧ q' = .int (-3) ∧ r' = .int (-1) := by
  have hintegers : dividend.Integers ⟨.divide, 0, 1, 2, .none, 0⟩ 2 (-7) :=
    ⟨⟨by decide, by decide, rfl, rfl, rfl, by decide⟩, ⟨by decide, by decide, rfl, rfl, rfl, by decide⟩, by decide, by decide⟩
  obtain ⟨q, r, q', r', hq, hr, hq', hr', -, -, -, hrelated⟩ := divisions_related hintegers (trusts_ofCells _ true 0).obeys
  obtain ⟨htmod, htdiv, -, -, hdiffer⟩ := hrelated (by decide)
  obtain ⟨hquotient, hremainder⟩ := hdiffer (by decide)
  exact ⟨q, r, q', r', hq, hr, hq', hr', hquotient, hremainder, htdiv (by decide), htmod⟩

end Bank

end QueryMachine
