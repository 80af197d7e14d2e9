import Mathlib
import QueryMachine.Proofs.Effects
import QueryMachine.Proofs.Records
import QueryMachine.Step.Record

/-!
The header of a record holds its own length. One step of correction is enough for it, and the types end where it says.
-/

namespace QueryMachine

namespace Varint

theorem length_eq_digits {n : Nat} (h : 0 < n) : length n = (Nat.digits 128 n).length := by
  fun_induction length n with
  | case1 n hn => rw [Nat.digits_of_lt 128 n (by omega) hn, List.length_singleton]
  | case2 n hn ih =>
    rw [Nat.digits_def' (by omega) h, List.length_cons, ih (by omega)]
    omega

/-- A number below 128 as its only byte, any other number as `put` writes it. -/
def putWith (put : Nat → Bytes) (n : Nat) : Bytes := if n < 128 then [n.toUInt8] else put n

theorem length_putWith {put : Nat → Bytes} (hput : ∀ n, 128 ≤ n → (put n).length = (Nat.digits 128 n).length) (n : Nat) :
    (putWith put n).length = length n := by
  rw [putWith]
  split
  · rename_i hn
    rw [length, if_pos hn, List.length_singleton]
  · rw [hput n (by omega), length_eq_digits (by omega)]

end Varint

/-- How many bytes a type takes in a header. -/
def Serial.headerSize (t : Nat) : Nat := if t ≤ 127 then 1 else Varint.length t

theorem Serial.headerSize_eq (t : Nat) : headerSize t = Varint.length t := by
  rw [headerSize]
  split
  · rw [Varint.length, if_pos (by omega)]
  · rfl

theorem Serial.length_written {f : Nat → Bytes} {ts : List Nat} (h : ∀ t ∈ ts, (f t).length = Varint.length t) :
    (ts.map f).flatten.length = (ts.map headerSize).sum := by
  rw [List.length_flatten, List.map_map]
  exact congrArg List.sum (List.map_congr_left fun t ht => (h t ht).trans (headerSize_eq t).symm)

theorem Bank.serialForm_header {b b' : Bank} {r : Nat} {format : Int} {f : SerialForm}
    (h : serialForm r format b = .ok f b') : f.header = Serial.headerSize f.type := by
  obtain ⟨g, b₁, -, h⟩ := bind_eq_ok h
  by_cases hnull : g.null = true
  · rw [if_pos hnull] at h
    cases h
    rfl
  by_cases hint : g.int = true
  · rw [if_neg hnull, if_pos hint] at h
    obtain ⟨n, b₂, -, h⟩ := bind_eq_ok h
    cases h
    simp only [SerialForm.ofType, Serial.headerSize, Serial.intType, Serial.magnitudeType]
    split_ifs <;> omega
  by_cases hreal : g.real = true
  · rw [if_neg hnull, if_neg hint, if_pos hreal] at h
    cases h
    rfl
  rw [if_neg hnull, if_neg hint, if_neg hreal] at h
  obtain ⟨c, b₂, -, h⟩ := bind_eq_ok h
  obtain ⟨-, h⟩ := check_bind_eq_ok h
  cases h
  rfl

namespace Tracked.Layout

variable {b b' : Bank} {format : Int} {l l' : Layout}

/-- The length of the header is that of the types that are laid out. -/
def Counts (l : Layout) : Prop := l.header = (l.forms.map fun f => Serial.headerSize f.type).sum

theorem Counts.add (hl : l.Counts) {r : Int} (h : add format l r b = .ok l' b') : l'.Counts := by
  obtain ⟨i, b₁, -, h⟩ := bind_eq_ok h
  obtain ⟨valid, b₂, -, h⟩ := bind_eq_ok h
  obtain ⟨-, h⟩ := check_bind_eq_ok h
  obtain ⟨f, b₃, hf, h⟩ := bind_eq_ok h
  have hcounts : l.header + f.header = ((l.forms ++ [f]).map fun f => Serial.headerSize f.type).sum := by
    rw [List.map_append, List.sum_append, ← hl, List.map_singleton, List.sum_singleton, Bank.serialForm_header hf]
  obtain ⟨g, b₄, -, h⟩ := bind_eq_ok h
  split_ifs at h
  · obtain ⟨-, b₅, -, h⟩ := bind_eq_ok h
    cases h
    exact hcounts
  · obtain ⟨c, b₅, -, h⟩ := bind_eq_ok h
    cases h
    exact hcounts
  · cases h
    exact hcounts

theorem Counts.foldlM (hl : l.Counts) {regs : List Int} (h : regs.foldlM (Layout.add format) l b = .ok l' b') : l'.Counts := by
  induction regs generalizing l b with
  | nil =>
    cases h
    exact hl
  | cons r regs ih =>
    rw [List.foldlM_cons] at h
    obtain ⟨l₁, b₁, hadd, h⟩ := bind_eq_ok h
    exact ih (hl.add hadd) h

end Tracked.Layout

/-- A header whose types take `s` bytes is as long as these and its own length together, and what is written of it ends
there, if one byte is written for every seven bits of a number. So the check that it does is passed by every record whose
types are below `2 ^ 32`. -/
theorem Record.header_ends_at_its_length {put : Nat → Bytes}
    (hput : ∀ n, 128 ≤ n → (put n).length = (Nat.digits 128 n).length) {ts : List Nat} (hts : ∀ t ∈ ts, t < 4294967296)
    {s header : Nat} (hs : (ts.map Serial.headerSize).sum = s) (hheader : Record.headerLength s = header) :
    header = s + Varint.length header ∧
    (∀ n, (Varint.putWith put n).length = Varint.length n) ∧
    (Varint.putWith put header ++ (ts.map (Varint.putWith put)).flatten).length = header ∧
    (∀ n < 9223372036854775808, (Varint.encode n).length = (Varint.putWith put n).length) ∧
    ∀ format (regs : List Int) b b' layout, regs.foldlM (Tracked.Layout.add format) {} b = .ok layout b' →
      layout.forms.map (·.type) = ts → layout.header = s ∧
      (check (Varint.length header + (layout.forms.map fun f => Varint.encode f.type).flatten.length == header) :
        BankM Unit) = pure () := by
  have hfixed := headerLength_eq s
  rw [hheader] at hfixed
  refine ⟨by omega, Varint.length_putWith hput, ?_, ?_, ?_⟩
  · rw [List.length_append, Varint.length_putWith hput, Serial.length_written fun t _ => Varint.length_putWith hput t, hs]
    exact hfixed
  · intro n hn
    rw [Varint.length_encode hn, Varint.length_putWith hput]
  · rintro format regs b b' layout hrun rfl
    have hcounts : layout.Counts := (show Tracked.Layout.Counts {} from rfl).foldlM hrun
    have htypes := Serial.length_written fun t ht => Varint.length_encode (lt_trans (hts t ht) (by norm_num))
    rw [hs, List.map_map] at htypes
    refine ⟨hcounts.trans ((congrArg List.sum (List.map_map ..).symm).trans hs), ?_⟩
    rw [show (layout.forms.map fun f => Varint.encode f.type).flatten.length = s from htypes, hfixed, beq_self_eq_true]
    rfl

/-- Types of 127 bytes: the length of their header takes a second byte, and so does the length with that byte. -/
theorem Record.header_ends_at_its_length_secondByte :
    (∀ t ∈ List.replicate 127 0, t < 4294967296) ∧ ((List.replicate 127 0).map Serial.headerSize).sum = 127 ∧
    headerLength 127 = 129 ∧
    (Varint.putWith (fun n => Varint.mark (Varint.groups n)) 129 ++
      ((List.replicate 127 0).map (Varint.putWith fun n => Varint.mark (Varint.groups n))).flatten).length = 129 := by
  have hput (n : Nat) (hn : 128 ≤ n) : (Varint.mark (Varint.groups n)).length = (Nat.digits 128 n).length := by
    rw [Varint.length_mark, Varint.length_groups, Varint.length_eq_digits (by omega)]
  have hsum : ((List.replicate 127 0).map Serial.headerSize).sum = 127 := by simp [Serial.headerSize]
  have hheader : headerLength 127 = 129 := by simp [headerLength, Varint.length]
  have hts : ∀ t ∈ List.replicate 127 0, t < 4294967296 := by simp
  exact ⟨hts, hsum, hheader, (header_ends_at_its_length hput hts hsum hheader).2.2.1⟩

end QueryMachine
