import Mathlib
import QueryMachine.Proofs.Words
import QueryMachine.Record.Field

/-!
Written numbers are read back: numbers of variable length, and the words of a record.
-/

namespace QueryMachine

theorem toNat_toUInt8 {n : Nat} (h : n < 256) : n.toUInt8.toNat = n := by
  simp [Nat.mod_eq_of_lt h]

namespace Varint

/-- The number with these groups of seven bits behind `acc`. -/
def collect (acc : Nat) (bytes : Bytes) : Nat := bytes.foldl (fun n b => n * 128 + b.toNat) acc

theorem collect_groups (n : Nat) : collect 0 (groups n) = n := by
  fun_induction groups n with
  | case1 n h => simp [collect, toNat_toUInt8 (show n < 256 by omega)]
  | case2 n h ih =>
    simp only [collect, List.foldl_append, List.foldl_cons, List.foldl_nil] at *
    rw [ih, toNat_toUInt8 (by omega)]
    omega

theorem lt_of_mem_groups {n : Nat} {b : UInt8} (h : b ∈ groups n) : b.toNat < 128 := by
  fun_induction groups n with
  | case1 n hn =>
    rw [List.mem_singleton.mp h, toNat_toUInt8 (by omega)]
    exact hn
  | case2 n hn ih =>
    rcases List.mem_append.mp h with h | h
    · exact ih h
    · rw [List.mem_singleton.mp h, toNat_toUInt8 (by omega)]
      omega

theorem length_groups (n : Nat) : (groups n).length = length n := by
  fun_induction groups n with
  | case1 n h => rw [length, if_pos h, List.length_singleton]
  | case2 n h ih =>
    rw [length, if_neg h, List.length_append, List.length_singleton, ih]
    omega

theorem length_pos (n : Nat) : 0 < length n := by
  rw [length]
  split <;> omega

theorem length_le {n k : Nat} (hk : 0 < k) (h : n < 128 ^ k) : length n ≤ k := by
  induction k generalizing n with
  | zero => omega
  | succ k ih =>
    rw [length]
    split
    · omega
    · rename_i hn
      cases k with
      | zero => omega
      | succ k =>
        have : n / 128 < 128 ^ (k + 1) := by
          rw [Nat.div_lt_iff_lt_mul (by omega), ← Nat.pow_succ]
          exact h
        have := ih (by omega) this
        omega

theorem lt_of_length_le {n k : Nat} (h : length n ≤ k) : n < 128 ^ k := by
  induction k generalizing n with
  | zero => exact absurd (length_pos n) (by omega)
  | succ k ih =>
    rw [length] at h
    split at h
    · rename_i hn
      exact lt_of_lt_of_le hn (Nat.le_self_pow (by omega) 128)
    · rw [Nat.pow_succ, ← Nat.div_lt_iff_lt_mul (by omega)]
      exact ih (by omega)

theorem length_mono {m n : Nat} (h : m ≤ n) : length m ≤ length n :=
  length_le (length_pos n) (lt_of_le_of_lt h (lt_of_length_le le_rfl))

@[simp] theorem length_mark (bytes : Bytes) : (mark bytes).length = bytes.length := by
  fun_induction mark bytes <;> simp_all

theorem toNat_or_mark {b : UInt8} (h : b.toNat < 128) : (b ||| 128).toNat = b.toNat + 128 := by
  have high : (128 : UInt8).toNat = 2 ^ 7 := rfl
  have apart := Nat.two_pow_add_eq_or_of_lt (i := 7) h 1
  rw [Nat.mul_one] at apart
  rw [UInt8.toNat_or, high, Nat.or_comm, ← apart, Nat.add_comm]

theorem decodeFrom_mark {fuel acc : Nat} {bytes rest : Bytes} (hne : bytes ≠ [])
    (hlt : ∀ b ∈ bytes, b.toNat < 128) (hfuel : bytes.length ≤ fuel) :
    decodeFrom fuel acc (mark bytes ++ rest) = (collect acc bytes, rest) := by
  induction bytes generalizing fuel acc with
  | nil => exact absurd rfl hne
  | cons b bytes ih =>
    obtain ⟨fuel, rfl⟩ : ∃ k, fuel = k + 1 := ⟨fuel - 1, by simp at hfuel; omega⟩
    have hb := hlt b List.mem_cons_self
    cases bytes with
    | nil =>
      have hb' : b < 128 := UInt8.lt_iff_toNat_lt.mpr hb
      simp [mark, decodeFrom, hb', collect]
    | cons c bytes =>
      have hm := toNat_or_mark hb
      have hbig : ¬ (b ||| 128) < 128 := by
        rw [UInt8.lt_iff_toNat_lt, hm]
        simp
      rw [mark, List.cons_append, decodeFrom, if_neg hbig, hm,
        ih (by simp) (fun d hd => hlt d (List.mem_cons_of_mem b hd)) (by simp at hfuel ⊢; omega)]
      · simp [collect]
      · simp

theorem encode_of_lt {n : Nat} (h : n < 72057594037927936) : encode n = mark (groups n) := by
  rw [encode, if_pos h]

/-- Below `2 ^ 63` every group of seven bits takes a byte, as the ninth byte holds the last eight bits. -/
theorem length_encode {n : Nat} (h : n < 9223372036854775808) : (encode n).length = length n := by
  rw [encode]
  split
  · rw [length_mark, length_groups]
  · have hlong : length n = 9 := by
      refine le_antisymm (length_le (by omega) (by norm_num; exact h)) ?_
      by_contra hle
      have := lt_of_length_le (k := 8) (by omega : length n ≤ 8)
      norm_num at this
      omega
    have hgroups : length (n / 256) ≤ 8 := length_le (by omega) (by norm_num; omega)
    rw [List.length_append, List.length_map, List.length_leftpad, length_groups, hlong, List.length_singleton,
      max_eq_left hgroups]

theorem decode_encode {n : Nat} (h : n < 72057594037927936) (rest : Bytes) :
    decode (encode n ++ rest) = (n, rest) := by
  have hlen : length n ≤ 8 := length_le (by omega) (by norm_num; exact h)
  have hne : groups n ≠ [] := by
    rw [← List.length_pos_iff, length_groups]
    exact length_pos n
  rw [decode, encode_of_lt h,
    decodeFrom_mark hne (fun b hb => lt_of_mem_groups hb) (by rw [length_groups]; exact hlen),
    collect_groups]

theorem decodeAt_encode {n : Nat} (h : n < 4294967296) (front rest : Bytes) :
    decodeAt (front ++ (encode n ++ rest)) front.length = (n, front.length + length n) := by
  have hn : n < 72057594037927936 := by omega
  simp only [decodeAt, List.drop_left, decode_encode hn, List.length_append, length_encode (show n < _ by omega),
    Prod.mk.injEq]
  omega

end Varint

namespace Serial

@[simp] theorem length_putWord (w : UInt64) (length : Nat) : (putWord w length).length = length := by
  induction length generalizing w with
  | zero => rfl
  | succ length ih => rw [putWord, List.length_append, ih, List.length_singleton]

theorem getNat_append (bytes : Bytes) (b : UInt8) :
    getNat (bytes ++ [b]) = 256 * getNat bytes + b.toNat := by
  simp [getNat]

theorem getNat_putWord (w : UInt64) (length : Nat) :
    getNat (putWord w length) = w.toNat % 256 ^ length := by
  induction length generalizing w with
  | zero => simp [putWord, getNat, Nat.mod_one]
  | succ length ih =>
    have low : w.toUInt8.toNat = w.toNat % 256 := by simp
    have high : (w >>> 8).toNat = w.toNat / 256 := by
      rw [UInt64.toNat_shiftRight, Nat.shiftRight_eq_div_pow]
      rfl
    rw [putWord, getNat_append, ih, low, high, Nat.pow_succ, Nat.mul_comm (256 ^ length),
      Nat.mod_mul]
    omega

theorem getInt_putWord {n : Int} {length : Nat} (hl : length ≤ 8)
    (hmin : -(256 ^ length : Int) ≤ 2 * n) (hmax : 2 * n < 256 ^ length) :
    getInt (putWord (intToWord n) length) = n := by
  have hword : ((intToWord n).toNat : Int) = n % 18446744073709551616 := by
    rw [intToWord_eq]
    simp only [Int64.ofInt, UInt64.toNat, BitVec.toNat_ofInt]
    omega
  have hdvd : ((256 ^ length : Nat) : Int) ∣ 18446744073709551616 := by
    have : (256 ^ length : Nat) ∣ 256 ^ 8 := Nat.pow_dvd_pow 256 hl
    exact_mod_cast this
  have hmod : (((intToWord n).toNat % 256 ^ length : Nat) : Int) = n % (256 ^ length : Nat) := by
    rw [Int.natCast_mod, hword, Int.emod_emod_of_dvd n hdvd]
  rw [getInt, length_putWord, getNat_putWord, show Nat.pow 256 length = 256 ^ length from rfl, hmod,
    Int.emod_bmod]
  apply Int.bmod_eq_of_le_mul_two
  · push_cast
    omega
  · push_cast
    omega

end Serial

end QueryMachine
