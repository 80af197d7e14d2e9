import Mathlib
import QueryMachine.Number.Double

/-!
Integers go into words and come back, and only zero is rounded to a zero.
-/

namespace QueryMachine

theorem intToWord_eq (n : Int) : intToWord n = (Int64.ofInt n).toUInt64 := by
  apply UInt64.toBitVec_inj.mp
  simp only [intToWord, UInt64.ofInt, Int64.ofInt]
  apply BitVec.eq_of_toNat_eq
  simp only [UInt64.toBitVec_ofNat', BitVec.toNat_ofInt, BitVec.toNat_ofNat]
  omega

theorem wordToInt_intToWord (n : Int) : wordToInt (intToWord n) = wrapWord n := by
  rw [intToWord_eq]
  exact Int64.toInt_ofInt

theorem wordToInt_intToWord_of_fits {n : Int} (h : fitsWord n = true) :
    wordToInt (intToWord n) = n := by
  rw [wordToInt_intToWord, wrapWord_of_fits h]

theorem fitsWord_wordToInt (w : UInt64) : fitsWord (wordToInt w) = true := by
  have hmin := w.toInt64.le_toInt
  have hmax := w.toInt64.toInt_lt
  rw [fitsWord, Bool.and_eq_true]
  exact ⟨decide_eq_true hmin, decide_eq_true (Int.le_of_lt_add_one hmax)⟩

theorem intToWord_wordToInt (w : UInt64) : intToWord (wordToInt w) = w := by
  rw [intToWord_eq]
  simp [wordToInt]

namespace Scaled

theorem lt_two_pow_bitLength (n : Nat) : n < 2 ^ bitLength n := by
  unfold bitLength
  split
  · omega
  · exact Nat.lt_log2_self

theorem two_pow_le_of_lt_bitLength {n k : Nat} (h : k < bitLength n) : 2 ^ k ≤ n := by
  unfold bitLength at h
  split at h
  · omega
  · rename_i hn
    exact (Nat.pow_le_pow_right (by omega) (Nat.le_of_lt_succ h)).trans (Nat.log2_self_le hn)

theorem bitLength_le {n k : Nat} (h : n < 2 ^ k) : bitLength n ≤ k := by
  unfold bitLength
  split
  · exact Nat.zero_le k
  · rename_i hn
    exact (Nat.log2_lt hn).mpr h

theorem roundShift_le (m s : Nat) : m / 2 ^ s ≤ roundShift m s ∧ roundShift m s ≤ m / 2 ^ s + 1 := by
  simp only [roundShift, Nat.pow_eq]
  split <;> omega

theorem mul_two_pow_lt {m p k : Nat} (hm : bitLength m ≤ p) (hk : k ≤ p - bitLength m) : m * 2 ^ k < 2 ^ p :=
  calc m * 2 ^ k
      ≤ m * 2 ^ (p - bitLength m) := Nat.mul_le_mul_left _ (Nat.pow_le_pow_right (by omega) hk)
    _ < 2 ^ bitLength m * 2 ^ (p - bitLength m) :=
        Nat.mul_lt_mul_of_pos_right (lt_two_pow_bitLength m) (Nat.two_pow_pos _)
    _ = 2 ^ p := by rw [← Nat.pow_add, Nat.add_sub_cancel' hm]

theorem mant_round_le (p : Nat) (least : Int) (x : Scaled) : (x.round p least).mant ≤ 2 ^ p := by
  have hlt := lt_two_pow_bitLength x.mant
  simp only [round]
  split
  · rename_i hs
    exact hlt.le.trans (Nat.pow_le_pow_right (by omega) (by omega))
  · generalize hs : (max ((bitLength x.mant : Int) - p) (least - x.exp)).toNat = s
    have hq : x.mant / 2 ^ s < 2 ^ p := by
      rw [Nat.div_lt_iff_lt_mul (Nat.two_pow_pos _), ← Nat.pow_add]
      exact hlt.trans_le (Nat.pow_le_pow_right (by omega) (by omega))
    exact (roundShift_le x.mant s).2.trans hq

end Scaled

namespace Double

theorem roundMagnitude_le (x : Scaled) : roundMagnitude x ≤ infMagnitude := by
  have hinf : infMagnitude = 9218868437227405312 := rfl
  have hhidden : hiddenBit = 4503599627370496 := rfl
  have hround := Scaled.mant_round_le 53 (-1074) x
  simp only [roundMagnitude, Nat.pow_eq, hinf, hhidden]
  generalize x.round 53 (-1074) = y at hround
  split
  · exact Nat.zero_le _
  · split
    · rename_i hshort
      have hmul : y.mant * 2 ^ (min (53 - (Scaled.bitLength y.mant : Int)) (y.exp + 1074)).toNat < 2 ^ 53 :=
        Scaled.mul_two_pow_lt hshort (by omega)
      split
      · exact le_rfl
      · generalize y.mant * 2 ^ (min (53 - (Scaled.bitLength y.mant : Int)) (y.exp + 1074)).toNat = m at hmul ⊢
        omega
    · split <;> omega

theorem roundMagnitude_pos {m : Nat} (h0 : m ≠ 0) (hm : m < 2 ^ 64) :
    0 < roundMagnitude ⟨m, 0⟩ ∧ roundMagnitude ⟨m, 0⟩ < infMagnitude := by
  have hlen : Scaled.bitLength m ≤ 64 := Scaled.bitLength_le hm
  have hlt := Scaled.lt_two_pow_bitLength m
  -- the mantissa after rounding, and how far it was shifted
  obtain ⟨mant, shift, hround, hpos, hmant, hshift⟩ :
      ∃ mant shift : Nat, Scaled.round 53 (-1074) ⟨m, 0⟩ = ⟨mant, shift⟩ ∧ 0 < mant ∧
        mant ≤ 2 ^ 53 ∧ shift ≤ 11 := by
    simp only [Scaled.round]
    split
    · rename_i hs
      have : Scaled.bitLength m ≤ 53 := by omega
      have := Nat.pow_le_pow_right (show 0 < 2 by omega) this
      exact ⟨m, 0, rfl, by omega, by omega, by omega⟩
    · rename_i hs
      have hs' : max ((Scaled.bitLength m : Int) - (53 : Nat)) (-1074 - 0) =
          ((Scaled.bitLength m - 53 : Nat) : Int) := by omega
      rw [hs', Int.toNat_natCast]
      obtain ⟨hlow, hhigh⟩ := Scaled.roundShift_le m (Scaled.bitLength m - 53)
      have hq : 0 < m / 2 ^ (Scaled.bitLength m - 53) :=
        Nat.div_pos (Scaled.two_pow_le_of_lt_bitLength (by omega)) (Nat.two_pow_pos _)
      have hq' : m / 2 ^ (Scaled.bitLength m - 53) < 2 ^ 53 := by
        rw [Nat.div_lt_iff_lt_mul (Nat.two_pow_pos _), ← Nat.pow_add]
        rwa [show 53 + (Scaled.bitLength m - 53) = Scaled.bitLength m by omega]
      exact ⟨Scaled.roundShift m (Scaled.bitLength m - 53), Scaled.bitLength m - 53, by simp, by omega,
        by omega, by omega⟩
  have hinf : infMagnitude = 9218868437227405312 := rfl
  have hhidden : hiddenBit = 4503599627370496 := rfl
  simp only [roundMagnitude, hround, show mant ≠ 0 by omega, if_false, Nat.pow_eq, hinf, hhidden]
  split
  · rename_i hshort
    have hmul : mant * 2 ^ (min (53 - (Scaled.bitLength mant : Int)) (shift + 1074)).toNat < 2 ^ 53 :=
      Scaled.mul_two_pow_lt hshort (by omega)
    split
    · omega
    · generalize mant * 2 ^ (min (53 - (Scaled.bitLength mant : Int)) (shift + 1074)).toNat = x at hmul ⊢
      omega
  · split <;> omega

theorem magnitude_ofMagnitude (neg : Bool) {m : Nat} (hm : m < infMagnitude) : (ofMagnitude neg m).magnitude = m := by
  have hsign : signBit = 9223372036854775808 := rfl
  have hinf : infMagnitude = 9218868437227405312 := rfl
  simp only [ofMagnitude, magnitude, UInt64.toNat_ofNat', hsign, hinf] at hm ⊢
  split <;> omega

theorem magnitude_ofInt {n : Int} (hn : fitsWord n = true) :
    (ofInt n).magnitude = roundMagnitude ⟨n.natAbs, 0⟩ ∧ roundMagnitude ⟨n.natAbs, 0⟩ < infMagnitude := by
  have hlt : roundMagnitude ⟨n.natAbs, 0⟩ < infMagnitude := by
    simp only [fitsWord, minWord, maxWord, Bool.and_eq_true, decide_eq_true_eq] at hn
    by_cases h0 : n = 0
    · subst h0
      decide
    · exact (roundMagnitude_pos (by omega) (by omega)).2
  exact ⟨magnitude_ofMagnitude _ hlt, hlt⟩

theorem isFinite_ofInt {n : Int} (hn : fitsWord n = true) : (ofInt n).isFinite = true := by
  obtain ⟨hmag, hlt⟩ := magnitude_ofInt hn
  rw [isFinite, hmag, decide_eq_true_eq]
  exact hlt

theorem isZero_ofInt {n : Int} (hn : fitsWord n = true) : (ofInt n).isZero = (n == 0) := by
  rw [isZero, (magnitude_ofInt hn).1]
  simp only [fitsWord, minWord, maxWord, Bool.and_eq_true, decide_eq_true_eq] at hn
  by_cases h0 : n = 0
  · subst h0
    rfl
  · obtain ⟨hpos, -⟩ := roundMagnitude_pos (m := n.natAbs) (by omega) (by omega)
    simp only [beq_eq_false_iff_ne.mpr h0, beq_eq_false_iff_ne]
    omega

end Double

end QueryMachine
