import Mathlib
import QueryMachine.Proofs.Serials

/-!
The order of values: no value, then numbers, then texts, then blobs. Two of the three collations are
total preorders; then the order of all values but doubles is one, too.
-/

namespace QueryMachine

open Std

namespace Bytes

theorem compare_length_cons (a b : UInt8) (as bs : Bytes) :
    Ord.compare (a :: as).length (b :: bs).length = Ord.compare as.length bs.length := by
  simp only [List.length_cons, Nat.compare_eq_ite_lt, Nat.add_lt_add_iff_right]

theorem compare_eq_compareLex (a b : Bytes) :
    a.compare b = List.compareLex (compareOn UInt8.toNat) a b := by
  induction a generalizing b with
  | nil => cases b <;> rfl
  | cons x xs ih =>
    cases b with
    | nil => rfl
    | cons y ys =>
      rw [List.compareLex_cons_cons, ← ih]
      simp only [compare, compareCommon, compareOn, Ordering.then_assoc, compare_length_cons]

instance : TransCmp Bytes.compare := by
  have heq : Bytes.compare = List.compareLex (compareOn UInt8.toNat) :=
    funext fun a => funext fun b => compare_eq_compareLex a b
  rw [heq]
  infer_instance

theorem compareCommon_swap (a b : Bytes) : a.compareCommon b = (b.compareCommon a).swap := by
  induction a generalizing b with
  | nil => cases b <;> rfl
  | cons x xs ih =>
    cases b with
    | nil => rfl
    | cons y ys => rw [compareCommon, compareCommon, Ordering.swap_then, ← ih, Nat.compare_swap]

theorem lowerByte_eq_zero {a : UInt8} : lowerByte a = 0 ↔ a = 0 := by
  unfold lowerByte
  split
  · rename_i h
    simp only [Bool.and_eq_true, decide_eq_true_eq, UInt8.le_iff_toNat_le] at h
    simp only [← UInt8.toNat_inj, UInt8.toNat_add, UInt8.toNat_ofNat] at h ⊢
    simp at h ⊢
    omega
  · rfl

/-- What a text is told by without regard to case: small letters, and nothing behind a zero byte. -/
def folded : Bytes → Bytes
  | [] => []
  | a :: as => lowerByte a :: if a = 0 then [] else folded as

theorem compareFolded_then_length (a b : Bytes) :
    (a.compareFolded b).then (Ord.compare a.length b.length) =
      (List.compareLex (compareOn UInt8.toNat) a.folded b.folded).then
        (Ord.compare a.length b.length) := by
  induction a generalizing b with
  | nil => cases b <;> rfl
  | cons x xs ih =>
    cases b with
    | nil => rfl
    | cons y ys =>
      rw [compare_length_cons]
      simp only [compareFolded, folded, List.compareLex_cons_cons, compareOn]
      by_cases hlower : lowerByte x = lowerByte y
      · have hzero : x = 0 ↔ y = 0 := by rw [← lowerByte_eq_zero, hlower, lowerByte_eq_zero]
        by_cases hx : x = 0
        · simp only [hx, hzero.mp hx, bne_self_eq_false, Bool.false_and, Bool.false_eq_true, if_false, if_true]
          rw [Nat.compare_eq_eq.mpr rfl]
          rfl
        · simp [hlower, hx, mt hzero.mpr hx, ih]
      · have hne : Ord.compare (lowerByte x).toNat (lowerByte y).toNat ≠ .eq := by
          rw [Ne, Nat.compare_eq_eq, UInt8.toNat_inj]
          exact hlower
        have hskip : (x != 0 && lowerByte x == lowerByte y) = false := by simp [hlower]
        rw [hskip, if_neg Bool.false_ne_true]
        generalize Ord.compare (lowerByte x).toNat (lowerByte y).toNat = o at hne ⊢
        cases o <;> simp_all

end Bytes

namespace Collation

instance : TransCmp Collation.binary.compare := inferInstanceAs (TransCmp Bytes.compare)

instance : TransCmp Collation.nocase.compare := by
  have heq : Collation.nocase.compare = compareLex
      (fun a b => List.compareLex (compareOn UInt8.toNat) (Bytes.folded a) (Bytes.folded b))
      (compareOn List.length) :=
    funext fun a => funext fun b => Bytes.compareFolded_then_length a b
  have htrans : TransCmp fun a b : Bytes =>
      List.compareLex (compareOn UInt8.toNat) (Bytes.folded a) (Bytes.folded b) :=
    { eq_swap := OrientedCmp.eq_swap, isLE_trans := TransCmp.isLE_trans }
  rw [heq]
  infer_instance

instance : OrientedCmp Collation.rtrim.compare where
  eq_swap := by
    intro a b
    simp only [Collation.compare, Ordering.swap_then, ← Bytes.compareCommon_swap, apply_ite Ordering.swap,
      Nat.compare_swap, Ordering.swap_eq, Bool.and_comm (Bytes.allSpaces (a.drop _))]

/-- Every collation puts two texts in opposite orders when they are swapped. -/
instance (coll : Collation) : OrientedCmp coll.compare := by
  cases coll <;> infer_instance

/-- Without regard to spaces at the end a text can be level with one that is on the other side of a
third. -/
theorem rtrim_not_transCmp : ¬ TransCmp Collation.rtrim.compare := by
  intro h
  have hle : (Collation.rtrim.compare [120, 32] [120, 1]).isLE = true :=
    TransCmp.isLE_trans (b := [120]) (by decide) (by decide)
  exact absurd hle (by decide)

end Collation

namespace Value

def rank : Value → Nat
  | .null => 0
  | .int _ | .real _ => 1
  | .text _ => 2
  | .blob _ => 3

def isReal : Value → Bool
  | .real _ => true
  | _ => false

def isNumber : Value → Bool
  | .int _ | .real _ => true
  | _ => false

def isString : Value → Bool
  | .text _ | .blob _ => true
  | _ => false

theorem isNumber_eq (v : Value) : v.isNumber = decide (v.rank = 1) := by cases v <;> rfl

theorem isString_eq (v : Value) : v.isString = decide (2 ≤ v.rank) := by cases v <;> rfl

def within (coll : Collation) : Value → Value → Ordering
  | .int m, .int n => Ord.compare m n
  | .text a, .text b => coll.compare a b
  | .blob a, .blob b => Bytes.compare a b
  | _, _ => .eq

/-- The order of two values that are not doubles: by their classes first. -/
def compare (coll : Collation) (v w : Value) : Ordering :=
  (Ord.compare v.rank w.rank).then (within coll v w)

variable {coll : Collation} {u v w : Value}

theorem compare_of_rank_lt (h : v.rank < w.rank) : v.compare coll w = .lt := by
  rw [compare, Nat.compare_eq_lt.mpr h]
  rfl

theorem within_swap (v w : Value) :
    within coll v w = (within coll w v).swap := by
  cases v with
  | null => cases w <;> rfl
  | real x => cases w <;> rfl
  | int m =>
    cases w with
    | int n =>
      show Ord.compare m n = (Ord.compare n m).swap
      exact OrientedCmp.eq_swap
    | _ => rfl
  | text a =>
    cases w with
    | text b =>
      show coll.compare a b = (coll.compare b a).swap
      exact OrientedCmp.eq_swap
    | _ => rfl
  | blob a =>
    cases w with
    | blob b =>
      show Bytes.compare a b = (Bytes.compare b a).swap
      exact OrientedCmp.eq_swap
    | _ => rfl

theorem compare_swap (v w : Value) :
    v.compare coll w = (w.compare coll v).swap := by
  rw [compare, compare, Ordering.swap_then, ← within_swap, Nat.compare_swap]

theorem isLE_compare_iff : (v.compare coll w).isLE = true ↔
    v.rank < w.rank ∨ v.rank = w.rank ∧ (within coll v w).isLE = true := by
  rw [compare]
  rcases Nat.lt_trichotomy v.rank w.rank with h | h | h
  · simp [Nat.compare_eq_lt.mpr h, h]
  · simp [h]
  · simp [Nat.compare_eq_gt.mpr h, h.ne', h.le]

theorem isLE_within_trans [TransCmp coll.compare] (hw : w.isReal = false) (hu : u.rank = w.rank)
    (hv : w.rank = v.rank) (huw : (within coll u w).isLE = true) (hwv : (within coll w v).isLE = true) :
    (within coll u v).isLE = true := by
  cases w with
  | real x => cases hw
  | null => cases u <;> first | rfl | cases hu
  | int n =>
    cases u <;> cases v <;> first | rfl | cases hu; done | cases hv; done | skip
    rename_i m k
    show (Ord.compare m k).isLE = true
    exact TransCmp.isLE_trans (b := n) huw hwv
  | text b =>
    cases u <;> cases v <;> first | rfl | cases hu; done | cases hv; done | skip
    rename_i a c
    show (coll.compare a c).isLE = true
    exact TransCmp.isLE_trans (b := b) huw hwv
  | blob b =>
    cases u <;> cases v <;> first | rfl | cases hu; done | cases hv; done | skip
    rename_i a c
    show (Bytes.compare a c).isLE = true
    exact TransCmp.isLE_trans (b := b) huw hwv

theorem isLE_compare_trans [TransCmp coll.compare] (hw : w.isReal = false)
    (huw : (u.compare coll w).isLE = true) (hwv : (w.compare coll v).isLE = true) :
    (u.compare coll v).isLE = true := by
  rw [isLE_compare_iff] at *
  rcases huw with huw | ⟨hu, huw⟩ <;> rcases hwv with hwv | ⟨hv, hwv⟩
  · exact .inl (huw.trans hwv)
  · exact .inl (hv ▸ huw)
  · exact .inl (hu ▸ hwv)
  · exact .inr ⟨hu.trans hv, isLE_within_trans hw hu hv huw hwv⟩

end Value

end QueryMachine
