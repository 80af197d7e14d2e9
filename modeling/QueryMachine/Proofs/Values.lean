import Mathlib
import QueryMachine.Proofs.Certain

/-!
The exact value of a double. Magnitudes count in units of the smallest positive double, so the order of
the keys is the order of the values; an integer part is an integer that a double has as its value.
-/

namespace QueryMachine

def wholePart (q : ℚ) : ℤ := if 0 ≤ q then ⌊q⌋ else ⌈q⌉

theorem wholePart_neg (q : ℚ) : wholePart (-q) = -wholePart q := by
  obtain hq | rfl | hq := lt_trichotomy q 0
  · rw [wholePart, wholePart, if_pos (by linarith), if_neg (by linarith), Int.floor_neg]
  · rfl
  · rw [wholePart, wholePart, if_neg (by linarith), if_pos hq.le, Int.ceil_neg]

@[simp] theorem wholePart_intCast (n : ℤ) : wholePart n = n := by
  rw [wholePart, Int.floor_intCast, Int.ceil_intCast, ite_self]

theorem wholePart_mono {p q : ℚ} (h : p ≤ q) : wholePart p ≤ wholePart q := by
  unfold wholePart
  split
  · rw [if_pos (by linarith)]
    exact Int.floor_mono h
  · split
    · have hp : ⌈p⌉ ≤ 0 := Int.ceil_le.mpr (by push_cast; linarith)
      have hq : 0 ≤ ⌊q⌋ := Int.floor_nonneg.mpr (by assumption)
      exact hp.trans hq
    · exact Int.ceil_mono h

theorem wholePart_lt {q : ℚ} {n : ℤ} (hn : 0 < n) (h : q < n) : wholePart q < n := by
  unfold wholePart
  split
  · exact Int.floor_lt.mpr h
  · exact (Int.ceil_le.mpr (by push_cast; linarith)).trans_lt hn

theorem compare_intCast (a b : ℤ) : Ord.compare (a : ℚ) (b : ℚ) = Ord.compare a b := by
  obtain h | h | h := lt_trichotomy a b
  · rw [compare_lt_iff_lt.mpr h, compare_lt_iff_lt.mpr (by exact_mod_cast h)]
  · rw [compare_eq_iff_eq.mpr h, compare_eq_iff_eq.mpr (by exact_mod_cast h)]
  · rw [compare_gt_iff_gt.mpr h, compare_gt_iff_gt.mpr (by exact_mod_cast h)]

theorem compare_mul_right {p q r : ℚ} (hr : 0 < r) : Ord.compare (p * r) (q * r) = Ord.compare p q := by
  obtain h | h | h := lt_trichotomy p q
  · rw [compare_lt_iff_lt.mpr h, compare_lt_iff_lt.mpr (mul_lt_mul_of_pos_right h hr)]
  · rw [h]
    simp
  · rw [compare_gt_iff_gt.mpr h, compare_gt_iff_gt.mpr (mul_lt_mul_of_pos_right h hr)]

namespace Double

/-- A magnitude in units of the smallest positive double. -/
def units (m : Nat) : Nat :=
  if m / hiddenBit = 0 then m % hiddenBit else (m % hiddenBit + hiddenBit) * 2 ^ (m / hiddenBit - 1)

theorem units_strictMono : StrictMono units := by
  refine strictMono_nat_of_lt_succ fun m => ?_
  have hpos : 0 < 2 ^ (m / hiddenBit - 1) := Nat.two_pow_pos _
  unfold units
  by_cases hlast : m % hiddenBit = hiddenBit - 1
  · -- the next magnitude has the next exponent
    have hnext : (m + 1) / hiddenBit = m / hiddenBit + 1 ∧ (m + 1) % hiddenBit = 0 := by
      simp only [hiddenBit] at hlast ⊢
      omega
    rw [hnext.1, hnext.2, if_neg (Nat.succ_ne_zero (m / hiddenBit)), hlast, Nat.add_sub_cancel, Nat.zero_add]
    split
    · rename_i h0
      rw [h0, pow_zero, Nat.mul_one]
      decide
    · rename_i h0
      have hpow : 2 ^ (m / hiddenBit) = 2 ^ (m / hiddenBit - 1) * 2 := by
        rw [← pow_succ, Nat.sub_add_cancel (Nat.pos_of_ne_zero h0)]
      rw [hpow, ← Nat.mul_assoc, Nat.mul_right_comm]
      exact Nat.mul_lt_mul_of_pos_right (by decide) hpos
  · have hnext : (m + 1) / hiddenBit = m / hiddenBit ∧ (m + 1) % hiddenBit = m % hiddenBit + 1 := by
      simp only [hiddenBit] at hlast ⊢
      omega
    rw [hnext.1, hnext.2]
    split
    · exact Nat.lt_succ_self _
    · exact Nat.mul_lt_mul_of_pos_right (by omega) hpos

theorem units_normal {e m : Nat} (hlow : hiddenBit ≤ m) (hhigh : m < 2 * hiddenBit) :
    units (e * hiddenBit + m) = m * 2 ^ e := by
  have hparts : (e * hiddenBit + m) / hiddenBit = e + 1 ∧ (e * hiddenBit + m) % hiddenBit + hiddenBit = m := by
    simp only [hiddenBit] at hlow hhigh ⊢
    omega
  rw [units, if_neg (by omega), hparts.1, hparts.2, Nat.add_sub_cancel]

def unit : ℚ := 2 ^ (-1074 : ℤ)

theorem unit_pos : 0 < unit := zpow_pos two_pos _

theorem scaled_eq_units (x : Double) : (x.scaled.mant : ℚ) * 2 ^ x.scaled.exp = units x.magnitude * unit := by
  simp only [scaled, units]
  split
  · rfl
  · rename_i h0
    have hexp : ((x.magnitude / hiddenBit : Nat) : ℤ) - 1075 = ((x.magnitude / hiddenBit - 1 : Nat) : ℤ) + -1074 := by
      have := Nat.pos_of_ne_zero h0
      omega
    simp only [hexp, zpow_add₀ (two_ne_zero (α := ℚ)), zpow_natCast, unit, Nat.cast_mul, Nat.cast_pow, Nat.cast_ofNat,
      mul_assoc]

def value (x : Double) : ℚ := (if x.neg then -(x.scaled.mant : ℚ) else x.scaled.mant) * 2 ^ x.scaled.exp

theorem value_eq (x : Double) : x.value = (if x.neg then -(units x.magnitude : ℚ) else units x.magnitude) * unit := by
  rw [value]
  split
  · rw [neg_mul, neg_mul, scaled_eq_units]
  · rw [scaled_eq_units]

theorem value_zero : zero.value = 0 := by
  rw [value_eq, show units zero.magnitude = 0 from rfl, Nat.cast_zero, neg_zero, ite_self, zero_mul]

theorem value_mono {x y : Double} (h : x.key < y.key) : x.value < y.value := by
  have hunits {m n : Nat} (hmn : m < n) : (units m : ℚ) < units n := by exact_mod_cast units_strictMono hmn
  have hnonneg (m : Nat) : (0 : ℚ) ≤ units m := Nat.cast_nonneg _
  have hzero : (units 0 : ℚ) = 0 := rfl
  rw [value_eq, value_eq]
  refine mul_lt_mul_of_pos_right ?_ unit_pos
  rw [key, key] at h
  cases hx : x.neg <;> cases hy : y.neg <;> simp only [hx, hy, if_true, Bool.false_eq_true, if_false] at h ⊢
  · exact hunits (by omega)
  · omega
  · -- not both magnitudes are zero
    have hxm := hnonneg x.magnitude
    have hym := hnonneg y.magnitude
    obtain hpos | hpos : 0 < x.magnitude ∨ 0 < y.magnitude := by omega
    · linarith [hunits hpos]
    · linarith [hunits hpos]
  · exact neg_lt_neg (hunits (by omega))

theorem value_congr {x y : Double} (h : x.key = y.key) : x.value = y.value := by
  have hmag : x.magnitude = y.magnitude := by
    unfold key at h
    split at h <;> split at h <;> omega
  rw [value_eq, value_eq, hmag]
  by_cases h0 : y.magnitude = 0
  · rw [h0]
    simp [units]
  · have hneg : x.neg = y.neg := by
      unfold key at h
      cases hx : x.neg <;> cases hy : y.neg <;>
        simp only [hx, hy, if_true, Bool.false_eq_true, if_false] at h ⊢ <;> omega
    rw [hneg]

theorem compare_value (x y : Double) : Ord.compare x.value y.value = Ord.compare x.key y.key := by
  obtain h | h | h := lt_trichotomy x.key y.key
  · rw [compare_lt_iff_lt.mpr h, compare_lt_iff_lt.mpr (value_mono h)]
  · rw [compare_eq_iff_eq.mpr h, compare_eq_iff_eq.mpr (value_congr h)]
  · rw [compare_gt_iff_gt.mpr h, compare_gt_iff_gt.mpr (value_mono h)]

theorem key_lt_iff (x y : Double) : x.key < y.key ↔ x.value < y.value := by
  rw [← compare_lt_iff_lt, ← compare_value, compare_lt_iff_lt]

theorem key_le_iff (x y : Double) : x.key ≤ y.key ↔ x.value ≤ y.value := by
  rw [← not_lt, ← not_lt, key_lt_iff]

theorem key_eq_iff (x y : Double) : x.key = y.key ↔ x.value = y.value := by
  rw [le_antisymm_iff, le_antisymm_iff, key_le_iff, key_le_iff]

theorem cmpInt_eq (x : Double) (n : Int) : x.cmpInt n = Ord.compare x.value n := by
  obtain ⟨m, hm⟩ : ∃ m : ℤ, m = if x.neg then -(x.scaled.mant : ℤ) else x.scaled.mant := ⟨_, rfl⟩
  have hvalue : x.value = (m : ℚ) * 2 ^ x.scaled.exp := by
    rw [value, hm]
    split <;> push_cast <;> rfl
  rw [hvalue]
  simp only [cmpInt, ← hm, Nat.pow_eq]
  split
  · rename_i h0
    obtain ⟨e, he⟩ := Int.eq_ofNat_of_zero_le h0
    rw [← compare_intCast, he, Int.toNat_natCast]
    push_cast
    rw [zpow_natCast]
  · rename_i h0
    obtain ⟨e, he⟩ := Int.eq_ofNat_of_zero_le (show 0 ≤ -x.scaled.exp by omega)
    have hexp : x.scaled.exp = -(e : ℤ) := by omega
    rw [he, Int.toNat_natCast, hexp, zpow_neg, zpow_natCast, ← compare_intCast]
    have hpow : (0 : ℚ) < 2 ^ e := by positivity
    rw [← compare_mul_right (p := (m : ℚ) * (2 ^ e)⁻¹) hpow, inv_mul_cancel_right₀ hpow.ne']
    push_cast
    rfl

theorem floor_eq (x : Double) : (x.scaled.floor : ℤ) = ⌊(x.scaled.mant : ℚ) * 2 ^ x.scaled.exp⌋ := by
  rw [Scaled.floor]
  split
  · rename_i h0
    obtain ⟨e, he⟩ := Int.eq_ofNat_of_zero_le h0
    have hcast : (x.scaled.mant : ℚ) * 2 ^ e = ((x.scaled.mant * 2 ^ e : Nat) : ℚ) := by push_cast; rfl
    rw [he, Int.toNat_natCast, zpow_natCast, hcast, Int.floor_natCast, Nat.pow_eq]
  · rename_i h0
    obtain ⟨e, he⟩ := Int.eq_ofNat_of_zero_le (show 0 ≤ -x.scaled.exp by omega)
    have hexp : x.scaled.exp = -(e : ℤ) := by omega
    have hcast : (x.scaled.mant : ℚ) * (2 ^ e)⁻¹ = (x.scaled.mant : ℚ) / ((2 ^ e : Nat) : ℚ) := by
      push_cast
      rw [div_eq_mul_inv]
    rw [he, Int.toNat_natCast, hexp, zpow_neg, zpow_natCast, hcast, Rat.floor_natCast_div_natCast, Nat.pow_eq]
    rfl

theorem trunc?_eq {x : Double} (h : x.isFinite = true) : x.trunc? = some (wholePart x.value) := by
  have hnonneg : (0 : ℚ) ≤ (x.scaled.mant : ℚ) * 2 ^ x.scaled.exp := by positivity
  rw [trunc?, if_pos h, value, floor_eq]
  split
  · rw [neg_mul, wholePart_neg, wholePart, if_pos hnonneg]
  · rw [wholePart, if_pos hnonneg]

theorem round_exact {a k : Nat} (ha : a < 2 ^ 53) (hm : a * 2 ^ k < 2 ^ 64) :
    ∃ m s : Nat, Scaled.round 53 (-1074) ⟨a * 2 ^ k, 0⟩ = ⟨m, s⟩ ∧ m * 2 ^ s = a * 2 ^ k ∧
      Scaled.bitLength m ≤ 53 ∧ s ≤ 11 := by
  have hlen : Scaled.bitLength (a * 2 ^ k) ≤ 53 + k := by
    apply Scaled.bitLength_le
    rw [pow_add]
    exact Nat.mul_lt_mul_of_pos_right ha (Nat.two_pow_pos k)
  have hlen' : Scaled.bitLength (a * 2 ^ k) ≤ 64 := Scaled.bitLength_le hm
  have hlt := Scaled.lt_two_pow_bitLength (a * 2 ^ k)
  simp only [Scaled.round]
  split
  · exact ⟨a * 2 ^ k, 0, rfl, by rw [pow_zero, Nat.mul_one], by omega, by omega⟩
  · -- the bits that are cut off are zeros
    obtain ⟨s, hs⟩ : ∃ s, s = Scaled.bitLength (a * 2 ^ k) - 53 := ⟨_, rfl⟩
    have hs' : max ((Scaled.bitLength (a * 2 ^ k) : Int) - (53 : Nat)) (-1074 - 0) = (s : Int) := by omega
    have hsplit : a * 2 ^ k = a * 2 ^ (k - s) * 2 ^ s := by rw [Nat.mul_assoc, ← pow_add, Nat.sub_add_cancel (by omega)]
    have hshift : Scaled.roundShift (a * 2 ^ k) s = a * 2 ^ (k - s) := by
      have hpos := Nat.two_pow_pos s
      simp only [Scaled.roundShift, Nat.pow_eq, hsplit, Nat.mul_div_cancel _ hpos, Nat.mul_mod_left]
      rw [if_neg (by omega)]
    rw [hs', Int.toNat_natCast, hshift]
    refine ⟨a * 2 ^ (k - s), s, by simp, hsplit.symm, ?_, by omega⟩
    apply Scaled.bitLength_le
    rw [hsplit, show Scaled.bitLength (a * 2 ^ (k - s) * 2 ^ s) = 53 + s by rw [← hsplit]; omega, pow_add] at hlt
    exact Nat.lt_of_mul_lt_mul_right hlt

theorem units_roundMagnitude {a k : Nat} (h0 : a ≠ 0) (ha : a < 2 ^ 53) (hm : a * 2 ^ k < 2 ^ 64) :
    units (roundMagnitude ⟨a * 2 ^ k, 0⟩) = a * 2 ^ k * 2 ^ 1074 := by
  obtain ⟨m, s, hround, hvalue, hlen, hs⟩ := round_exact ha hm
  have hm0 : m ≠ 0 := by
    rintro rfl
    have : 0 < a * 2 ^ k := Nat.mul_pos (Nat.pos_of_ne_zero h0) (Nat.two_pow_pos k)
    omega
  have hhigh := Scaled.lt_two_pow_bitLength m
  have hlen0 : Scaled.bitLength m ≠ 0 := fun h => by
    rw [h] at hhigh
    omega
  have hlow : 2 ^ (Scaled.bitLength m - 1) ≤ m := Scaled.two_pow_le_of_lt_bitLength (by omega)
  -- the mantissa is moved up until it has all its bits
  obtain ⟨up, hup⟩ : ∃ up, up = 53 - Scaled.bitLength m := ⟨_, rfl⟩
  have hmin : min (53 - (Scaled.bitLength m : Int)) (s + 1074) = (up : Int) := by omega
  have hfull : hiddenBit ≤ m * 2 ^ up ∧ m * 2 ^ up < 2 * hiddenBit := by
    constructor
    · calc hiddenBit = 2 ^ (Scaled.bitLength m - 1) * 2 ^ up := by
            rw [← pow_add, show Scaled.bitLength m - 1 + up = 52 by omega]
            rfl
        _ ≤ m * 2 ^ up := Nat.mul_le_mul_right _ hlow
    · calc m * 2 ^ up < 2 ^ Scaled.bitLength m * 2 ^ up := Nat.mul_lt_mul_of_pos_right hhigh (Nat.two_pow_pos up)
        _ = 2 * hiddenBit := by
            rw [← pow_add, show Scaled.bitLength m + up = 53 by omega]
            rfl
  have hexp : ((s : Int) - up + 1074).toNat = s + 1074 - up := by omega
  rw [roundMagnitude]
  simp only [hround, hm0, if_false, hlen, if_true, hmin, Int.toNat_natCast, Nat.pow_eq]
  rw [if_neg (by omega), hexp, units_normal hfull.1 hfull.2, Nat.mul_assoc, ← pow_add,
    show up + (s + 1074 - up) = s + 1074 by omega, pow_add, ← Nat.mul_assoc, hvalue]

theorem neg_ofMagnitude (neg : Bool) {m : Nat} (hm : m < infMagnitude) : (ofMagnitude neg m).neg = neg := by
  simp only [ofMagnitude, Double.neg, UInt64.toNat_ofNat', signBit, infMagnitude, hiddenBit] at hm ⊢
  cases neg <;> simp <;> omega

theorem value_ofInt {n : Int} (hn : n.natAbs < 2 ^ 64) {a k : Nat} (h : n.natAbs = a * 2 ^ k) (ha : a < 2 ^ 53) :
    (ofInt n).value = n ∧ (ofInt n).isNaN = false := by
  have hlt : roundMagnitude ⟨n.natAbs, 0⟩ < infMagnitude := by
    by_cases h0 : n.natAbs = 0
    · rw [h0]
      decide
    · exact (roundMagnitude_pos h0 hn).2
  have hmag : (ofInt n).magnitude = roundMagnitude ⟨n.natAbs, 0⟩ := magnitude_ofMagnitude _ hlt
  have hneg : (ofInt n).neg = decide (n < 0) := neg_ofMagnitude _ hlt
  have hunits : ((units (ofInt n).magnitude : Nat) : ℚ) * unit = n.natAbs := by
    rw [hmag, h]
    by_cases h0 : a = 0
    · rw [h0, Nat.zero_mul, show units (roundMagnitude ⟨0, 0⟩) = 0 from rfl, Nat.cast_zero, zero_mul]
    · rw [units_roundMagnitude h0 ha (h ▸ hn), Nat.cast_mul (a * 2 ^ k), mul_assoc, Nat.cast_pow 2 1074, unit, zpow_neg,
        Nat.cast_ofNat]
      exact (congrArg _ (mul_inv_cancel₀ (pow_ne_zero 1074 two_ne_zero))).trans (mul_one _)
  constructor
  · rw [value_eq, hneg]
    obtain h0 | h0 := lt_or_ge n 0
    · rw [if_pos (decide_eq_true h0), neg_mul, hunits, ← Int.cast_natCast, Int.ofNat_natAbs_of_nonpos h0.le,
        Int.cast_neg, neg_neg]
    · rw [if_neg (by simpa using h0), hunits, ← Int.cast_natCast, Int.natAbs_of_nonneg h0]
  · rw [isNaN, hmag, decide_eq_false_iff_not]
    omega

theorem scaled_mant_lt (x : Double) : x.scaled.mant < 2 ^ 53 := by
  have := Nat.mod_lt x.magnitude (show 0 < hiddenBit by decide)
  have hhidden : hiddenBit = 4503599627370496 := rfl
  simp only [scaled]
  split <;> dsimp only <;> omega

/-- The integer part of a double has no more significant bits than the double. -/
theorem exists_natAbs_wholePart (x : Double) : ∃ a k, (wholePart x.value).natAbs = a * 2 ^ k ∧ a < 2 ^ 53 := by
  have hnonneg : (0 : ℚ) ≤ (x.scaled.mant : ℚ) * 2 ^ x.scaled.exp := by positivity
  have hwhole : (wholePart x.value).natAbs = x.scaled.floor := by
    rw [value]
    split
    · rw [neg_mul, wholePart_neg, Int.natAbs_neg, wholePart, if_pos hnonneg, ← floor_eq, Int.natAbs_natCast]
    · rw [wholePart, if_pos hnonneg, ← floor_eq, Int.natAbs_natCast]
  rw [hwhole, Scaled.floor]
  split
  · exact ⟨_, _, rfl, x.scaled_mant_lt⟩
  · exact ⟨_, 0, (Nat.mul_one _).symm, (Nat.div_le_self _ _).trans_lt x.scaled_mant_lt⟩

theorem value_ofInt_wholePart {x : Double} (h : fitsWord (wholePart x.value) = true) :
    (ofInt (wholePart x.value)).value = wholePart x.value ∧ (ofInt (wholePart x.value)).isNaN = false := by
  obtain ⟨a, k, hak, ha⟩ := x.exists_natAbs_wholePart
  simp only [fitsWord, minWord, maxWord, Bool.and_eq_true, decide_eq_true_eq] at h
  exact value_ofInt (by omega) hak ha

theorem value_ofInt_minWord : (ofInt minWord).value = minWord := (value_ofInt (a := 1) (k := 63) (by decide) (by decide) (by decide)).1

theorem value_ofInt_maxWord : (ofInt (maxWord + 1)).value = (maxWord + 1 : Int) :=
  (value_ofInt (a := 1) (k := 63) (by decide) (by decide) (by decide)).1

theorem toInt64Clamped_eq {x : Double} (hx : x.isFinite = true) (h : fitsWord (wholePart x.value) = true) :
    x.toInt64Clamped = wholePart x.value := by
  simp only [fitsWord, Bool.and_eq_true, decide_eq_true_eq] at h
  rw [toInt64Clamped, isNaN_of_isFinite hx, if_neg Bool.false_ne_true, trunc?_eq hx]
  split
  · rename_i hlow
    rw [key_le_iff, value_ofInt_minWord] at hlow
    have := wholePart_mono hlow
    rw [wholePart_intCast] at this
    omega
  · split
    · rename_i hhigh
      rw [key_le_iff, value_ofInt_maxWord] at hhigh
      have := wholePart_mono hhigh
      rw [wholePart_intCast] at this
      omega
    · rfl

theorem toInt64Clamped_outer {x : Double} (h : x.isFinite = true → fitsWord (wholePart x.value) = false) :
    x.toInt64Clamped = minWord ∨ x.toInt64Clamped = maxWord := by
  rw [toInt64Clamped]
  split
  · exact .inl rfl
  · split
    · exact .inl rfl
    · split
      · exact .inr rfl
      · -- between the ends everything fits
        rename_i hmin hmax
        have hfinite : x.isFinite = true := by
          have hlow : (ofInt minWord).key = -4890909195324358656 := by decide
          have hhigh : (ofInt (maxWord + 1)).key = 4890909195324358656 := by decide
          rw [hlow] at hmin
          rw [hhigh] at hmax
          have hinf : infMagnitude = 9218868437227405312 := rfl
          rw [isFinite, decide_eq_true_eq]
          cases hneg : x.neg <;> simp only [key, hneg, if_true, Bool.false_eq_true, if_false] at hmin hmax <;> omega
        rw [key_le_iff, value_ofInt_minWord, not_le] at hmin
        rw [key_le_iff, value_ofInt_maxWord, not_le] at hmax
        have hlow := wholePart_mono hmin.le
        have hhigh := wholePart_lt (by decide) hmax
        have hfits := h hfinite
        rw [wholePart_intCast] at hlow
        rw [fitsWord, decide_eq_true hlow, decide_eq_true (Int.le_of_lt_add_one hhigh)] at hfits
        cases hfits

/-- The integer that a double is, if it is one strictly inside a word. -/
def whole? (x : Double) : Option Int :=
  if x.isFinite = true ∧ x.value = wholePart x.value ∧ minWord < wholePart x.value ∧ wholePart x.value < maxWord then
    some (wholePart x.value)
  else none

theorem whole?_eq_some {x : Double} {n : Int} :
    x.whole? = some n ↔ x.isFinite = true ∧ x.value = n ∧ minWord < n ∧ n < maxWord := by
  rw [whole?]
  constructor
  · intro h
    split at h
    · cases h
      assumption
    · cases h
  · rintro ⟨hx, hn, hlow, hhigh⟩
    have hwhole : wholePart x.value = n := by rw [hn, wholePart_intCast]
    rw [if_pos ⟨hx, by rw [hwhole, hn], by rwa [hwhole], by rwa [hwhole]⟩, hwhole]

theorem fitsWord_of_inside {n : Int} (hlow : minWord < n) (hhigh : n < maxWord) : fitsWord n = true := by
  rw [fitsWord, decide_eq_true hlow.le, decide_eq_true hhigh.le]
  rfl

end Double

namespace Number

/-- The exact value of a number that is not infinite. -/
def value : Number → ℚ
  | .int n => n
  | .real x => x.value

namespace Stands

variable {a : Number} {x : Double}

theorem value_eq (h : a.Stands x) : a.value = x.value := by
  obtain rfl | ⟨hplain, -, hkey⟩ := h
  · rfl
  · cases a with
    | int n =>
      cases (show n = 0 from hplain)
      rw [Double.value_congr (y := .zero) hkey, Double.value_zero]
      rfl
    | real y => exact (Double.value_congr hkey).symm

theorem isFinite_of_plain (hplain : a.Plain) (hkey : x.key = a.level) : x.isFinite = true := by
  have hinf : Double.infMagnitude = 9218868437227405312 := rfl
  rw [Double.isFinite, decide_eq_true_eq]
  cases a with
  | int n =>
    cases (show n = 0 from hplain)
    have := (Double.key_eq_zero_iff x).mp hkey
    omega
  | real y =>
    have hy : y.magnitude < Double.infMagnitude := by simpa [Plain, Double.isFinite] using hplain
    simp only [level, Double.key] at hkey
    split at hkey <;> split at hkey <;> omega

theorem eq_real (h : a.Stands x) (hx : x.isFinite = false) : a = .real x := by
  refine h.resolve_right fun ⟨hplain, _, hkey⟩ => ?_
  rw [isFinite_of_plain hplain hkey] at hx
  cases hx

theorem cases_of_isFinite (h : a.Stands x) (hx : x.isFinite = true) :
    a = .int 0 ∧ x.value = 0 ∨ ∃ y : Double, a = .real y ∧ y.isFinite = true ∧ y.value = x.value := by
  have hvalue := h.value_eq
  obtain rfl | ⟨hplain, -, -⟩ := h
  · exact .inr ⟨x, rfl, hx, rfl⟩
  · cases a with
    | int n =>
      cases (show n = 0 from hplain)
      exact .inl ⟨rfl, hvalue.symm⟩
    | real y => exact .inr ⟨y, rfl, hplain, hvalue⟩

theorem truncate_run {b : Bank} (h : a.Stands x) (hx : x.isFinite = true) :
    Bank.truncate a b = .ok (wholePart x.value) b := by
  obtain ⟨rfl, hzero⟩ | ⟨y, rfl, hy, hvalue⟩ := h.cases_of_isFinite hx
  · rw [hzero]
    rfl
  · rw [Bank.truncate, Double.trunc?_eq hy, hvalue]
    rfl

theorem truncate_of_not_isFinite {b : Bank} (h : a.Stands x) (hx : x.isFinite = false) :
    Bank.truncate a b = .error (if x.isNaN then .badValue else .integerRange) b := by
  rw [h.eq_real hx, Bank.truncate, Double.trunc?, hx]
  rfl

theorem cmp?_int (h : a.Stands x) (hx : x.isFinite = true) (n : Int) :
    a.cmp? (.int n) = some (Ord.compare x.value n) := by
  obtain ⟨rfl, hzero⟩ | ⟨y, rfl, hy, hvalue⟩ := h.cases_of_isFinite hx
  · rw [hzero, Number.cmp?, ← compare_intCast, Int.cast_zero]
  · rw [Number.cmp?, Double.isNaN_of_isFinite hy, Double.isInf_of_isFinite hy, Double.cmpInt_eq, hvalue]
    rfl

end Stands

end Number

end QueryMachine
