import Mathlib
import QueryMachine.Number.Overflow
import QueryMachine.Proofs.Words

/-!
Sums, differences and products of words. A sum and a difference are refused exactly if they do not fit;
so is a product, but for two factors that are both smaller than half a word, whose product is wrapped.
-/

namespace QueryMachine

theorem fitsWord_iff {n : Int} :
    fitsWord n = true ↔ -9223372036854775808 ≤ n ∧ n ≤ 9223372036854775807 := by
  rw [fitsWord, Bool.and_eq_true, decide_eq_true_eq, decide_eq_true_eq]

namespace Word

variable {a b : Int64}

theorem inside (a : Int64) : -9223372036854775808 ≤ a.toInt ∧ a.toInt ≤ 9223372036854775807 :=
  ⟨a.le_toInt, Int.le_of_lt_add_one a.toInt_lt⟩

theorem toInt_add_of_fits (h : fitsWord (a.toInt + b.toInt) = true) : (a + b).toInt = a.toInt + b.toInt := by
  rw [Int64.toInt_add]
  exact wrapWord_of_fits h

theorem toInt_sub_of_fits (h : fitsWord (a.toInt - b.toInt) = true) : (a - b).toInt = a.toInt - b.toInt := by
  rw [Int64.toInt_sub]
  exact wrapWord_of_fits h

theorem toInt_mul_of_fits (h : fitsWord (a.toInt * b.toInt) = true) : (a * b).toInt = a.toInt * b.toInt := by
  rw [Int64.toInt_mul]
  exact wrapWord_of_fits h

theorem toInt_neg_of_fits (h : fitsWord (-a.toInt) = true) : (-a).toInt = -a.toInt := by
  rw [Int64.toInt_neg]
  exact wrapWord_of_fits h

theorem exceeds_iff :
    (0 < a ∧ Int64.maxValue - a < b) ↔ 9223372036854775807 < a.toInt + b.toInt := by
  have ha := inside a
  have hb := inside b
  have hzero : (0 : Int64).toInt = 0 := rfl
  have hmax : Int64.maxValue.toInt = 9223372036854775807 := rfl
  rw [Int64.lt_iff_toInt_lt, Int64.lt_iff_toInt_lt, hzero]
  constructor
  · rintro ⟨hpos, hlt⟩
    rw [toInt_sub_of_fits (fitsWord_iff.mpr (by omega)), hmax] at hlt
    omega
  · intro hlt
    refine ⟨by omega, ?_⟩
    rw [toInt_sub_of_fits (fitsWord_iff.mpr (by omega)), hmax]
    omega

theorem recedes_iff (hb : ¬ 0 ≤ b) :
    (a < 0 ∧ b + 1 < -(a + Int64.maxValue)) ↔ a.toInt + b.toInt < -9223372036854775808 := by
  have ha := inside a
  have hb' := inside b
  rw [Int64.le_iff_toInt_le] at hb
  have hzero : (0 : Int64).toInt = 0 := rfl
  have hone : (1 : Int64).toInt = 1 := rfl
  have hmax : Int64.maxValue.toInt = 9223372036854775807 := rfl
  rw [Int64.lt_iff_toInt_lt, Int64.lt_iff_toInt_lt, hzero]
  have hleft : (b + 1).toInt = b.toInt + 1 := toInt_add_of_fits (fitsWord_iff.mpr (by omega))
  have hright (hneg : a.toInt < 0) : (-(a + Int64.maxValue)).toInt = -(a.toInt + 9223372036854775807) := by
    have hsum : (a + Int64.maxValue).toInt = a.toInt + 9223372036854775807 := toInt_add_of_fits (fitsWord_iff.mpr (by omega))
    rw [toInt_neg_of_fits (fitsWord_iff.mpr (by omega)), hsum]
  constructor
  · rintro ⟨hneg, hlt⟩
    rw [hleft, hright hneg] at hlt
    omega
  · intro hlt
    have hneg : a.toInt < 0 := by omega
    refine ⟨hneg, ?_⟩
    rw [hleft, hright hneg]
    omega

theorem sum?_eq (a b : Int64) :
    (sum? a b).map Int64.toInt = if fitsWord (a.toInt + b.toInt) then some (a.toInt + b.toInt) else none := by
  have ha := inside a
  have hb := inside b
  have hfits (h : -9223372036854775808 ≤ a.toInt + b.toInt ∧ a.toInt + b.toInt ≤ 9223372036854775807) :
      (some (a + b)).map Int64.toInt = if fitsWord (a.toInt + b.toInt) then some (a.toInt + b.toInt) else none := by
    rw [if_pos (fitsWord_iff.mpr h), Option.map_some, toInt_add_of_fits (fitsWord_iff.mpr h)]
  rw [sum?]
  by_cases hsign : 0 ≤ b
  · have hsign' := Int64.le_iff_toInt_le.mp hsign
    rw [if_pos hsign]
    by_cases hbig : 9223372036854775807 < a.toInt + b.toInt
    · rw [if_pos (exceeds_iff.mpr hbig), if_neg (fun h => by have := fitsWord_iff.mp h; omega)]
      rfl
    · rw [if_neg (mt exceeds_iff.mp hbig)]
      exact hfits (by have : (0 : Int64).toInt = 0 := rfl; omega)
  · have hsign' := mt Int64.le_iff_toInt_le.mpr hsign
    rw [if_neg hsign]
    by_cases hsmall : a.toInt + b.toInt < -9223372036854775808
    · rw [if_pos ((recedes_iff hsign).mpr hsmall), if_neg (fun h => by have := fitsWord_iff.mp h; omega)]
      rfl
    · rw [if_neg (mt (recedes_iff hsign).mp hsmall)]
      exact hfits (by have : (0 : Int64).toInt = 0 := rfl; omega)

theorem difference?_eq (a b : Int64) :
    (difference? a b).map Int64.toInt =
      if fitsWord (a.toInt - b.toInt) then some (a.toInt - b.toInt) else none := by
  have ha := inside a
  have hb := inside b
  have hmin : Int64.minValue.toInt = -9223372036854775808 := rfl
  rw [difference?]
  by_cases hleast : b = Int64.minValue
  · have hb' : b.toInt = -9223372036854775808 := by rw [hleast]; rfl
    rw [if_pos hleast]
    by_cases hsign : 0 ≤ a
    · rw [if_pos hsign, if_neg fun h => ?_]
      · rfl
      · have := fitsWord_iff.mp h
        have := Int64.le_iff_toInt_le.mp hsign
        have : (0 : Int64).toInt = 0 := rfl
        omega
    · have hfits : fitsWord (a.toInt - b.toInt) = true := by
        have := mt Int64.le_iff_toInt_le.mpr hsign
        have : (0 : Int64).toInt = 0 := rfl
        exact fitsWord_iff.mpr (by omega)
      rw [if_neg hsign, if_pos hfits, Option.map_some, toInt_sub_of_fits hfits]
  · have hne : b.toInt ≠ -9223372036854775808 := fun h => hleast (Int64.toInt_inj.mp h)
    rw [if_neg hleast, sum?_eq, toInt_neg_of_fits (fitsWord_iff.mpr (by omega)), Int.sub_eq_add_neg]

structure Halves (n upper lower : Int) : Prop where
  eq : n = upper * 4294967296 + lower
  bounds : upper.natAbs ≤ 2147483648 ∧ lower.natAbs < 4294967296
  signs : 0 ≤ upper ∧ 0 ≤ lower ∨ upper ≤ 0 ∧ lower ≤ 0

theorem halves (a : Int64) : Halves a.toInt (a / 4294967296).toInt (a % 4294967296).toInt := by
  have ha := inside a
  have hmod : (a % 4294967296).toInt = a.toInt.tmod 4294967296 := Int64.toInt_mod a 4294967296
  have hdiv : (a / 4294967296).toInt = a.toInt.tdiv 4294967296 := by
    rw [Int64.toInt_div]
    refine wrapWord_of_fits (fitsWord_iff.mpr ?_)
    rw [show (4294967296 : Int64).toInt = 4294967296 from rfl, Int.tdiv_eq_ediv, show Int.sign 4294967296 = 1 from rfl]
    split <;> omega
  rw [hmod, hdiv, Int.tdiv_eq_ediv, Int.tmod_eq_emod, show Int.sign 4294967296 = 1 from rfl,
    show Int.natAbs 4294967296 = 4294967296 from rfl]
  split <;> exact ⟨by omega, by omega, by omega⟩

theorem Halves.upper_eq_zero_iff {n upper lower : Int} (h : Halves n upper lower) :
    upper = 0 ↔ n.natAbs < 4294967296 := by
  have := h.eq
  have := h.bounds
  have := h.signs
  omega

theorem Halves.mul {n upper lower x : Int} (h : Halves n upper lower) (hx : x.natAbs < 4294967296) :
    (0 ≤ x * upper ∧ 0 ≤ x * lower ∨ x * upper ≤ 0 ∧ x * lower ≤ 0) ∧ fitsWord (x * upper) = true ∧
      (upper ≠ 0 → (x * upper).natAbs ≤ 2147483648 → fitsWord (x * lower) = true) := by
  have hupper : (x * upper).natAbs ≤ 4294967295 * 2147483648 := by
    rw [Int.natAbs_mul]
    exact Nat.mul_le_mul (by omega) h.bounds.1
  refine ⟨?_, fitsWord_iff.mpr (by omega), fun h0 hsmall => ?_⟩
  · obtain ⟨hu, hl⟩ | ⟨hu, hl⟩ := h.signs <;> obtain hx0 | hx0 := Int.le_total 0 x
    · exact .inl ⟨Int.mul_nonneg hx0 hu, Int.mul_nonneg hx0 hl⟩
    · exact .inr ⟨Int.mul_nonpos_of_nonpos_of_nonneg hx0 hu, Int.mul_nonpos_of_nonpos_of_nonneg hx0 hl⟩
    · exact .inr ⟨Int.mul_nonpos_of_nonneg_of_nonpos hx0 hu, Int.mul_nonpos_of_nonneg_of_nonpos hx0 hl⟩
    · exact .inl ⟨Int.mul_nonneg_of_nonpos_of_nonpos hx0 hu, Int.mul_nonneg_of_nonpos_of_nonpos hx0 hl⟩
  · have hfactor : x.natAbs ≤ 2147483648 := by
      rw [Int.natAbs_mul] at hsmall
      exact (Nat.le_mul_of_pos_right _ (Int.natAbs_pos.mpr h0)).trans hsmall
    have hlower : (x * lower).natAbs ≤ 2147483648 * 4294967295 := by
      rw [Int.natAbs_mul]
      exact Nat.mul_le_mul hfactor (Nat.le_of_lt_succ h.bounds.2)
    exact fitsWord_iff.mpr (by omega)

theorem join_eq {n : Int} {x upper lower : Int64} (h : Halves n upper.toInt lower.toInt) (h0 : upper.toInt ≠ 0)
    (hx : x.toInt.natAbs < 4294967296) :
    (product?.join (x * upper) (x * lower)).map Int64.toInt =
      if fitsWord (x.toInt * n) then some (x.toInt * n) else none := by
  obtain ⟨hsigns, hfits, hrest⟩ := h.mul hx
  have hupper : (x * upper).toInt = x.toInt * upper.toInt := toInt_mul_of_fits hfits
  have hsplit : x.toInt * n = x.toInt * upper.toInt * 4294967296 + x.toInt * lower.toInt := by
    rw [h.eq, Int.mul_add, Int.mul_assoc]
  have hlow : (-2147483648 : Int64).toInt = -2147483648 := rfl
  have hhigh : (2147483648 : Int64).toInt = 2147483648 := rfl
  have hhalf : (4294967296 : Int64).toInt = 4294967296 := rfl
  rw [product?.join, hsplit]
  by_cases hout : x * upper < -2147483648 ∨ 2147483648 ≤ x * upper
  · rw [if_pos hout, if_neg fun hf => ?_]
    · rfl
    · have := fitsWord_iff.mp hf
      rw [Int64.lt_iff_toInt_lt, Int64.le_iff_toInt_le, hupper, hlow, hhigh] at hout
      omega
  · rw [if_neg hout]
    rw [Int64.lt_iff_toInt_lt, Int64.le_iff_toInt_le, hupper, hlow, hhigh] at hout
    have hlower : (x * lower).toInt = x.toInt * lower.toInt := toInt_mul_of_fits (hrest h0 (by omega))
    have hshift : (x * upper * 4294967296).toInt = x.toInt * upper.toInt * 4294967296 := by
      rw [← hupper]
      refine toInt_mul_of_fits ?_
      rw [hupper, hhalf]
      exact fitsWord_iff.mpr (by omega)
    rw [sum?_eq, hlower, hshift]

/-- A product of two factors below `2 ^ 32` is not looked at; any other one is refused exactly if it does not fit. -/
theorem product?_eq (a b : Int64) :
    (product? a b).map Int64.toInt =
      if a.toInt.natAbs < 4294967296 ∧ b.toInt.natAbs < 4294967296 then some (wrapWord (a.toInt * b.toInt))
      else if fitsWord (a.toInt * b.toInt) then some (a.toInt * b.toInt) else none := by
  have ha := halves a
  have hb := halves b
  have hzero (c : Int64) : c = 0 ↔ c.toInt = 0 := (Int64.toInt_inj (y := 0)).symm
  have hsmall {c : Int64} (h : c / 4294967296 = 0) : c % 4294967296 = c := by
    apply Int64.toInt_inj.mp
    have := (halves c).eq
    rw [(hzero _).mp h] at this
    omega
  rw [product?]
  by_cases ha1 : a / 4294967296 = 0
  · have ha' := ha.upper_eq_zero_iff.mp ((hzero _).mp ha1)
    by_cases hb1 : b / 4294967296 = 0
    · have hb' := hb.upper_eq_zero_iff.mp ((hzero _).mp hb1)
      rw [if_pos ha1, if_pos hb1, if_pos ⟨ha', hb'⟩, Option.map_some, Int64.toInt_mul]
      rfl
    · have hb' := mt (fun h => (hzero _).mpr (hb.upper_eq_zero_iff.mpr h)) hb1
      rw [if_pos ha1, if_neg hb1, if_neg fun h => hb' h.2, hsmall ha1]
      exact join_eq hb (mt (hzero _).mpr hb1) ha'
  · have ha' := mt (fun h => (hzero _).mpr (ha.upper_eq_zero_iff.mpr h)) ha1
    rw [if_neg ha1]
    by_cases hb1 : b / 4294967296 = 0
    · have hb' := hb.upper_eq_zero_iff.mp ((hzero _).mp hb1)
      rw [if_pos hb1, if_neg fun h => ha' h.1, hsmall hb1, Int64.mul_comm, Int64.mul_comm (a % _), Int.mul_comm]
      exact join_eq ha (mt (hzero _).mpr ha1) hb'
    · have hb' := mt (fun h => (hzero _).mpr (hb.upper_eq_zero_iff.mpr h)) hb1
      rw [if_neg hb1, if_neg fun h => ha' h.1, if_neg fun hf => ?_]
      · rfl
      · -- both factors have an upper half
        have hmul : 4294967296 * 4294967296 ≤ (a.toInt * b.toInt).natAbs := by
          rw [Int.natAbs_mul]
          exact Nat.mul_le_mul (by omega) (by omega)
        have := fitsWord_iff.mp hf
        omega
end Word

end QueryMachine
