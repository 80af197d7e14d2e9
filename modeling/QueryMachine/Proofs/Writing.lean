import Mathlib
import QueryMachine.Proofs.Affinities

/-!
Records of registers that may count zeros. The zeros of a blob that is met while the contents are still counted
as empty are not written out but taken off the length twice, so what such a record should say in its last bytes
is lost; all other zeros are written.
-/

namespace QueryMachine

namespace Cell

/-- The value of a register with its zeros written out. -/
def fullValue (c : Cell) : Value :=
  if c.flags.zero then .blob (c.bytes ++ List.replicate c.zeros.toNat 0) else c.value

/-- What is written for a register as it is: zeros that are counted only stand for what lies in the buffer. -/
def rawValue (c : Cell) : Value :=
  if c.flags.zero then
    let bytes := (c.data.map (·.bytes)).getD []
    let n := c.size + c.zeros.toNat
    .blob ((bytes ++ List.replicate (n - bytes.length) 0).take n)
  else c.value

/-- Registers that hold a value, possibly with counted zeros. -/
structure Recordable (c : Cell) : Prop where
  defined : c.flags.undefined = false
  counted : c.flags.zero = true → c.flags.kind = .blob ∧ 0 ≤ c.zeros
  string : c.flags.kind = .text ∨ c.flags.kind = .blob →
    c.bytes.length = c.size ∧ c.size + (if c.flags.zero then c.zeros.toNat else 0) ≤ 2147483647

variable {c : Cell}

theorem length_padded (bytes : Bytes) (n : Nat) :
    ((bytes ++ List.replicate (n - bytes.length) 0).take n).length = n := by
  rw [List.length_take, List.length_append, List.length_replicate]
  omega

theorem fullValue_of_not_zero (h : c.flags.zero = false) : c.fullValue = c.value := by
  rw [fullValue, h, if_neg Bool.false_ne_true]

theorem rawValue_of_not_zero (h : c.flags.zero = false) : c.rawValue = c.value := by
  rw [rawValue, h, if_neg Bool.false_ne_true]

theorem Recordable.short (h : c.Recordable) : Record.Short c.fullValue := by
  rw [fullValue]
  cases hz : c.flags.zero with
  | true =>
    obtain ⟨hbytes, hsize⟩ := h.string (.inr (h.counted hz).1)
    simp only [hz, if_true] at hsize
    simp only [if_true, Record.Short, List.length_append, List.length_replicate]
    omega
  | false =>
    rw [if_neg Bool.false_ne_true, value]
    cases hk : c.flags.kind with
    | null | integer | float => trivial
    | text =>
      have := h.string (.inl hk)
      simp only [Record.Short]
      omega
    | blob =>
      have := h.string (.inr hk)
      simp only [Record.Short]
      omega

theorem Recordable.short_raw (h : c.Recordable) : Record.Short c.rawValue := by
  cases hz : c.flags.zero with
  | true =>
    obtain ⟨-, hsize⟩ := h.string (.inr (h.counted hz).1)
    rw [rawValue, if_pos hz]
    simp only [hz, if_true] at hsize
    simp only [Record.Short, length_padded]
    exact hsize
  | false =>
    rw [rawValue_of_not_zero hz, ← fullValue_of_not_zero hz]
    exact h.short

theorem Recordable.length_raw (h : c.Recordable) (format : Int) :
    (Record.fieldFor format c.rawValue).type = (Record.fieldFor format c.fullValue).type := by
  rw [rawValue, fullValue]
  split
  · rename_i hz
    obtain ⟨hbytes, -⟩ := h.string (.inr (h.counted hz).1)
    rw [Record.fieldFor, Record.fieldFor, length_padded, List.length_append, List.length_replicate, hbytes]
  · rfl

theorem grow_preserve (name n : Nat) (c : Cell) :
    ∃ own : Nat, (c.grow name n true).own = some own ∧ (c.own = some own ∨ own = name) ∧
      (c.grow name n true).data = some ⟨own, c.bytes⟩ := by
  simp only [grow, if_true, ite_self]
  cases c.own with
  | none => exact ⟨name, rfl, .inr rfl, rfl⟩
  | some own =>
    dsimp only
    split
    · exact ⟨name, rfl, .inr rfl, rfl⟩
    · exact ⟨own, rfl, .inl rfl, rfl⟩

theorem expandBlob_of_zero (h : c.flags.zero = true) (name : Nat) :
    ∃ own : Nat, (c.expandBlob name).own = some own ∧ (c.own = some own ∨ own = name) ∧
      (c.expandBlob name).data = some ⟨own, c.bytes ++ List.replicate c.zeros.toNat 0⟩ := by
  obtain ⟨own, hown, hcases, hdata⟩ := grow_preserve name (max 1 (c.size + c.zeros.toNat)) c
  refine ⟨own, ?_, hcases, ?_⟩
  · rw [expandBlob, if_pos h]
    exact hown
  · rw [expandBlob, if_pos h]
    dsimp only
    rw [hdata]
    rfl

theorem expandBlob_of_not_zero (h : c.flags.zero = false) (name : Nat) : c.expandBlob name = c := by
  rw [expandBlob, h, if_neg Bool.false_ne_true]

theorem size_expandBlob (h : c.flags.zero = true) (name : Nat) :
    (c.expandBlob name).size = c.size + c.zeros.toNat := by
  rw [expandBlob, if_pos h]

theorem kind_expandBlob (c : Cell) (name : Nat) :
    (c.expandBlob name).flags.kind = c.flags.kind ∧ (c.expandBlob name).flags.undefined = c.flags.undefined := by
  rw [expandBlob]
  split
  · dsimp only
    rw [flags_grow]
    exact ⟨rfl, rfl⟩
  · exact ⟨rfl, rfl⟩

theorem bytes_expandBlob (h : c.Recordable) (hz : c.flags.zero = true) (name : Nat) :
    (c.expandBlob name).bytes = c.bytes ++ List.replicate c.zeros.toNat 0 := by
  obtain ⟨own, -, -, hdata⟩ := expandBlob_of_zero hz name
  obtain ⟨hbytes, -⟩ := h.string (.inr (h.counted hz).1)
  rw [Content.bytes, hdata, size_expandBlob hz]
  exact List.take_of_length_le (by simp [hbytes])

theorem Recordable.expandBlob (h : c.Recordable) (name : Nat) : (c.expandBlob name).Recordable := by
  cases hz : c.flags.zero with
  | false => rwa [expandBlob_of_not_zero hz]
  | true =>
    obtain ⟨hkind, hdefined⟩ := kind_expandBlob c name
    have hnot := zero_expandBlob name c
    obtain ⟨hbytes, hsize⟩ := h.string (.inr (h.counted hz).1)
    refine ⟨hdefined.trans h.defined, fun hz' => ?_, fun _ => ?_⟩
    · rw [hnot] at hz'
      cases hz'
    · rw [bytes_expandBlob h hz, size_expandBlob hz, hnot]
      simp only [hz, if_true] at hsize
      simp [hbytes, hsize]

theorem Recordable.rawValue_expandBlob (h : c.Recordable) (name : Nat) :
    (c.expandBlob name).rawValue = c.fullValue := by
  rw [rawValue_of_not_zero (zero_expandBlob name c)]
  cases hz : c.flags.zero with
  | false => rw [expandBlob_of_not_zero hz, fullValue_of_not_zero hz]
  | true =>
    rw [value, (kind_expandBlob c name).1, (h.counted hz).1, fullValue, hz, if_pos rfl, bytes_expandBlob h hz]

theorem Recordable.fullValue_expandBlob (h : c.Recordable) (name : Nat) :
    (c.expandBlob name).fullValue = c.fullValue := by
  rw [fullValue_of_not_zero (zero_expandBlob name c), ← rawValue_of_not_zero (zero_expandBlob name c),
    h.rawValue_expandBlob]

end Cell

namespace Cell

variable {c : Cell}

theorem Recordable.field_of_string (h : c.Recordable) (hn : c.flags.null = false) (hi : c.flags.int = false)
    (hr : c.flags.real = false) (format : Int) :
    ∃ bytes : Bytes, (c.size : Int) + (if c.flags.zero then c.zeros else 0) = bytes.length ∧
      Record.fieldFor format c.fullValue = ⟨Serial.stringType c.flags.str bytes.length, bytes⟩ := by
  have hkind : c.flags.kind = if c.flags.str then .text else .blob := by rw [Flags.kind, hn, hi, hr]; rfl
  have hstring := h.string (by rw [hkind]; cases c.flags.str <;> simp)
  cases hz : c.flags.zero with
  | true =>
    obtain ⟨hblob, hzeros⟩ := h.counted hz
    have hstr : c.flags.str = false := by
      rw [hkind] at hblob
      cases hs : c.flags.str with
      | false => rfl
      | true => simp [hs] at hblob
    refine ⟨c.bytes ++ List.replicate c.zeros.toNat 0, ?_, ?_⟩
    · rw [if_pos rfl, List.length_append, List.length_replicate, hstring.1]
      omega
    · rw [fullValue, hz, if_pos rfl, hstr]
      rfl
  | false =>
    refine ⟨c.bytes, by simp [hstring.1], ?_⟩
    rw [fullValue_of_not_zero hz, value, hkind]
    cases c.flags.str <;> rfl

theorem Recordable.take_of_string (h : c.Recordable) (hn : c.flags.null = false) (hi : c.flags.int = false)
    (hr : c.flags.real = false) (format : Int) :
    let bytes := (c.data.map (·.bytes)).getD []
    let n := (Record.fieldFor format c.rawValue).bytes.length
    (bytes ++ List.replicate (n - bytes.length) 0).take n = (Record.fieldFor format c.rawValue).bytes := by
  have hkind : c.flags.kind = if c.flags.str then .text else .blob := by rw [Flags.kind, hn, hi, hr]; rfl
  intro bytes n
  cases hz : c.flags.zero with
  | true =>
    have hraw : (Record.fieldFor format c.rawValue).bytes =
        (bytes ++ List.replicate (c.size + c.zeros.toNat - bytes.length) 0).take (c.size + c.zeros.toNat) := by
      rw [rawValue, if_pos hz, Record.fieldFor]
    have hlen : n = c.size + c.zeros.toNat := by
      rw [show n = (Record.fieldFor format c.rawValue).bytes.length from rfl, hraw, length_padded]
    rw [hraw, hlen]
  | false =>
    obtain ⟨hbytes, -⟩ := h.string (by rw [hkind]; cases c.flags.str <;> simp)
    have hraw : (Record.fieldFor format c.rawValue).bytes = c.bytes := by
      rw [rawValue_of_not_zero hz, value, hkind]
      cases c.flags.str <;> rfl
    have htake : c.bytes = bytes.take c.size := by
      rw [Content.bytes]
      show _ = ((c.data.map (·.bytes)).getD []).take c.size
      cases c.data <;> simp
    have hlen : n = c.size := by rw [show n = (Record.fieldFor format c.rawValue).bytes.length from rfl, hraw, hbytes]
    have hle := congrArg List.length htake
    rw [List.length_take, hbytes] at hle
    rw [hraw, hlen, List.take_append_of_le_length (by omega), ← htake]

end Cell

/-- The string and the buffer of a register are left as they were. -/
structure Cell.Retains (c d : Cell) : Prop where
  data : d.data = c.data
  term : d.flags.term = c.flags.term
  own : d.own = c.own
  zero : d.flags.zero = true → c.flags.zero = true

theorem Cell.Retains.refl (c : Cell) : c.Retains c := ⟨rfl, rfl, rfl, id⟩

/-- A register with a record of which `n` bytes are counted, and with zeros behind them. -/
structure Cell.Stores (c : Cell) (record : Bytes) (n : Nat) (zeros : Int) : Prop where
  data : c.data.map (·.bytes) = some record
  size : c.size = n
  flags : c.flags = if zeros = 0 then .onlyBlob else { blob := true, zero := true }
  zeros : zeros ≠ 0 → c.zeros = wrapHalf zeros

namespace Tracked.Layout

/-- The zeros of a register are taken off the length and not written out. -/
def isEarly (l : Layout) (c : Cell) : Bool := c.flags.zero && l.data == 0

def lay (format : Int) (l : Layout) (c : Cell) : Layout where
  forms := l.forms ++ [Bank.formOf (Record.fieldFor format c.fullValue)]
  header := l.header + Varint.length (Record.fieldFor format c.fullValue).type
  data := l.data + (Record.fieldFor format c.fullValue).bytes.length - if l.isEarly c then 2 * c.zeros else 0
  zeros := if l.isEarly c then 2 * c.zeros else l.zeros

/-- The zeros that are taken off the length, which happens twice. -/
def missing (format : Int) : Layout → List Cell → Int
  | _, [] => 0
  | l, c :: cs => (if l.isEarly c then c.zeros else 0) + missing format (l.lay format c) cs

def sources (format : Int) : Layout → List Cell → List Value
  | _, [] => []
  | l, c :: cs => (if l.isEarly c then c.rawValue else c.fullValue) :: sources format (l.lay format c) cs

variable {format : Int}

/-- The layout of registers: the types and contents are counted in full, but for the zeros that are taken off. -/
theorem foldl_lay (format : Int) (l : Layout) {cells : List Cell} (hc : ∀ c ∈ cells, c.Recordable) :
    let fields := cells.map fun c => Record.fieldFor format c.fullValue
    (cells.foldl (lay format) l).forms = l.forms ++ fields.map Bank.formOf ∧
      (cells.foldl (lay format) l).header = l.header + (Record.typesOf fields).length ∧
      (cells.foldl (lay format) l).data =
        l.data + (Record.contentsOf fields).length - 2 * l.missing format cells := by
  induction cells generalizing l with
  | nil => simp [Record.typesOf, Record.contentsOf, missing]
  | cons c cells ih =>
    have hsmall := Record.type_fieldFor_lt format (hc c List.mem_cons_self).short
    obtain ⟨hforms, hheader, hdata⟩ := ih (l.lay format c) fun d hd => hc d (List.mem_cons_of_mem c hd)
    have htype : (Varint.encode (Record.fieldFor format c.fullValue).type).length =
        Varint.length (Record.fieldFor format c.fullValue).type := Varint.length_encode (by omega)
    have hnext : (l.lay format c).data = l.data + (Record.fieldFor format c.fullValue).bytes.length -
        2 * if l.isEarly c then c.zeros else 0 := by
      rw [lay]
      split
      · rfl
      · rw [Int.mul_zero]
    dsimp only
    rw [List.foldl_cons, hforms, hheader, hdata, List.map_cons, Record.typesOf_cons, Record.contentsOf_cons,
      List.length_append, List.length_append, htype, missing, hnext, Nat.cast_add]
    refine ⟨?_, ?_, ?_⟩
    · rw [lay, List.map_cons, List.append_assoc]
      rfl
    · rw [lay, Nat.add_assoc]
    · ring

theorem type_sources (format : Int) (l : Layout) {cells : List Cell} (hc : ∀ c ∈ cells, c.Recordable) :
    ((l.sources format cells).map fun v => (Record.fieldFor format v).type) =
      cells.map fun c => (Record.fieldFor format c.fullValue).type := by
  induction cells generalizing l with
  | nil => rfl
  | cons c cells ih =>
    rw [sources, List.map_cons, List.map_cons, ih _ fun d hd => hc d (List.mem_cons_of_mem c hd)]
    congr 1
    split
    · exact (hc c List.mem_cons_self).length_raw format
    · rfl

end Tracked.Layout

theorem Record.field_congr {format : Int} {vs ws : List Value}
    (h : (vs.map fun v => (fieldFor format v).type) = ws.map fun w => (fieldFor format w).type) :
    (vs.map fun v => Bank.formOf (fieldFor format v)) = (ws.map fun w => Bank.formOf (fieldFor format w)) ∧
      typesOf (vs.map (fieldFor format)) = typesOf (ws.map (fieldFor format)) ∧
      (contentsOf (vs.map (fieldFor format))).length = (contentsOf (ws.map (fieldFor format))).length := by
  have hforms (us : List Value) : (us.map fun u => Bank.formOf (fieldFor format u)) =
      (us.map fun u => (fieldFor format u).type).map fun t => ⟨t, Serial.typeLength t, Varint.length t⟩ := by
    rw [List.map_map]
    refine List.map_congr_left fun u _ => ?_
    rw [Bank.formOf, length_fieldFor]
    rfl
  have htypes (us : List Value) : typesOf (us.map (fieldFor format)) =
      ((us.map fun u => (fieldFor format u).type).map Varint.encode).flatten := by
    rw [typesOf, List.map_map, List.map_map]
    rfl
  have hlength (us : List Value) : (contentsOf (us.map (fieldFor format))).length =
      ((us.map fun u => (fieldFor format u).type).map Serial.typeLength).sum := by
    rw [contentsOf, List.length_flatten, List.map_map, List.map_map, List.map_map]
    exact congrArg List.sum (List.map_congr_left fun u _ => length_fieldFor format u)
  rw [hforms, hforms, htypes, htypes, hlength, hlength, h]
  exact ⟨rfl, rfl, rfl⟩

theorem Tracked.Layout.fits_values {format : Int} {cells : List Cell} (hc : ∀ c ∈ cells, c.Recordable)
    {values : List Value} (hshort : ∀ v ∈ values, Record.Short v) (hn : values.length ≤ 2147483647)
    (htypes : (values.map fun v => (Record.fieldFor format v).type) =
      (sources format {} cells).map fun v => (Record.fieldFor format v).type) :
    let layout := cells.foldl (lay format) {}
    layout.forms = (sources format {} cells).map (fun v => Bank.formOf (Record.fieldFor format v)) ∧
      (layout.forms.map fun f => Varint.encode f.type).flatten = Record.typesOf (values.map (Record.fieldFor format)) ∧
      layout.header = (Record.typesOf (values.map (Record.fieldFor format))).length ∧
      Record.headerLength layout.header + layout.data =
        (Record.encode (values.map (Record.fieldFor format))).length - 2 * missing format {} cells := by
  intro layout
  obtain ⟨hforms, hheader, hdata⟩ := foldl_lay format {} hc
  have hfull : (values.map fun v => (Record.fieldFor format v).type) =
      (cells.map Cell.fullValue).map fun v => (Record.fieldFor format v).type := by
    rw [htypes, type_sources format {} hc, List.map_map]
    rfl
  obtain ⟨hform, htype, hlength⟩ := Record.field_congr hfull
  obtain ⟨hform', -, -⟩ := Record.field_congr htypes
  have hmap : (cells.map fun c => Record.fieldFor format c.fullValue) =
      (cells.map Cell.fullValue).map (Record.fieldFor format) := by
    rw [List.map_map]
    rfl
  have hrecord := Record.length_encode_fields format hshort hn
  rw [hmap, List.nil_append, List.map_map] at hforms
  rw [hmap, Nat.zero_add, ← htype] at hheader
  rw [hmap, Int.zero_add, ← hlength] at hdata
  have hsources : layout.forms = (sources format {} cells).map fun v => Bank.formOf (Record.fieldFor format v) :=
    hforms.trans (hform.symm.trans hform')
  refine ⟨hsources, ?_, hheader, ?_⟩
  · rw [hsources, ← hform', List.map_map, Record.typesOf, List.map_map]
    rfl
  · rw [show layout.header = _ from hheader, show layout.data = _ from hdata, hrecord, Record.header]
    push_cast
    ring

/-- What is known about a register does not mislead one who writes it, and no double is known without `known`. -/
def Fact.Writes (known : Bool) (f : Fact) (c : Cell) : Prop := f.Fair c ∧ (f.real?.isSome = true → known = true)

theorem Fact.law_writes (known : Bool) : Law (Writes known) :=
  law_fair.known (Q := fun _ d => d = true → known = true) fun h => by cases h

namespace Bank

variable {b : Bank} {known : Nat → Bool} {r : Nat}

/-- The registers can be written; only of those with `known` a double is known. -/
def Reads (b : Bank) (known : Nat → Bool) : Prop := b.Heeds fun r => Fact.Writes (known r)

namespace Reads

theorem flags_run (h : b.Reads known) (hr : r < b.reach) :
    ∃ t l, flags r b = .ok (b.cellAt r).flags (b.knowing t l) ∧ (b.knowing t l).Reads known :=
  Heeds.flags_run h (fun _ => Fact.law_writes _) hr

theorem int_run (h : b.Reads known) (hr : r < b.reach) : int r b = .ok (b.cellAt r).int b :=
  Heeds.int_run h hr fun f hf => hf.1.int (by split <;> simp)

/-- What is read of a double: itself, or a zero for a zero of which something is known. -/
theorem real_run (h : b.Reads known) (hr : r < b.reach) (hint : (b.cellAt r).flags.int = false) :
    ∃ a, real r b = .ok a b ∧ (b.cellAt r).real.Kept (known r) a.toDouble := by
  obtain ⟨t, hk, -, ht⟩ := h
  obtain ⟨hfair, hknown⟩ := ht r hr
  rw [Fact.Fair, hint, if_neg Bool.false_ne_true] at hfair
  refine ⟨_, hk.real_run r, ?_⟩
  obtain heq | ⟨hsome, hzeros⟩ := hfair.kept (hk.plain.fact r)
  · exact .inl heq
  · exact .inr ⟨hknown hsome, hzeros⟩

theorem serialForm_run (h : b.Reads known) (hr : r < b.reach) (hc : (b.cellAt r).Recordable) (format : Int) :
    ∃ t l, serialForm r format b = .ok (formOf (Record.fieldFor format (b.cellAt r).fullValue)) (b.knowing t l) ∧
      (b.knowing t l).Reads known := by
  obtain ⟨t, l, hlook, h'⟩ := h.flags_run hr
  refine ⟨t, l, ?_, h'⟩
  have hlen := Record.length_fieldFor format (b.cellAt r).fullValue
  have hint : int r (b.knowing t l) = .ok (b.cellAt r).int (b.knowing t l) := h'.int_run hr
  have hnumber (hk : (b.cellAt r).flags.kind ≠ .blob) : (b.cellAt r).fullValue = (b.cellAt r).value := by
    refine Cell.fullValue_of_not_zero (Bool.eq_false_iff.mpr fun hz => hk (hc.counted hz).1)
  rw [serialForm, bind_of_ok hlook]
  obtain ⟨hk, hn⟩ | ⟨hk, hn, hi⟩ | ⟨hk, hn, hi, hre⟩ | ⟨-, hn, hi, hre⟩ := (b.cellAt r).flags.kind_cases
  · rw [hnumber (by simp [hk]), Cell.value, hk] at hlen ⊢
    rw [hn, if_pos rfl, formOf_small (show 0 < 12 by decide) hlen]
    rfl
  · rw [hnumber (by simp [hk]), Cell.value, hk] at hlen ⊢
    rw [hn, hi, if_neg Bool.false_ne_true, if_pos rfl, bind_of_ok hint, formOf_small ?_ hlen]
    · rfl
    · have hcases := Record.intType_cases (b.cellAt r).int format (fitsWord_wordToInt _)
      simp only [Record.fieldFor]
      omega
  · rw [hnumber (by simp [hk]), Cell.value, hk] at hlen ⊢
    rw [hn, hi, hre, if_neg Bool.false_ne_true, if_neg Bool.false_ne_true, if_pos rfl,
      formOf_small (show 7 < 12 by decide) hlen]
    rfl
  · obtain ⟨bytes, hsize, hfield⟩ := hc.field_of_string hn hi hre format
    have hcell : cell r (b.knowing t l) = .ok (b.cellAt r) (b.knowing t l) := rfl
    rw [hn, hi, hre, hfield, formOf_string, if_neg Bool.false_ne_true, if_neg Bool.false_ne_true,
      if_neg Bool.false_ne_true, bind_of_ok hcell]
    simp only [hsize, Int.toNat_natCast, Int.natCast_nonneg, decide_true]
    rfl

theorem serialBytes_run (h : b.Reads known) (hr : r < b.reach) (hc : (b.cellAt r).Recordable) (format : Int) :
    ∃ w t l, (b.cellAt r).rawValue.Kept (known r) w ∧
      serialBytesOfLength r (Record.fieldFor format (b.cellAt r).rawValue).bytes.length b =
        .ok (Record.fieldFor format w).bytes (b.knowing t l) ∧ (b.knowing t l).Reads known ∧
      flags r b = .ok (b.cellAt r).flags (b.knowing t l) := by
  obtain ⟨t, l, hlook, h'⟩ := h.flags_run hr
  have hint : int r (b.knowing t l) = .ok (b.cellAt r).int (b.knowing t l) := h'.int_run hr
  have hnumber (hk : (b.cellAt r).flags.kind ≠ .blob) : (b.cellAt r).rawValue = (b.cellAt r).value :=
    Cell.rawValue_of_not_zero (Bool.eq_false_iff.mpr fun hz => hk (hc.counted hz).1)
  rw [serialBytesOfLength, bind_of_ok hlook]
  obtain ⟨hk, hn⟩ | ⟨hk, hn, hi⟩ | ⟨hk, hn, hi, hre⟩ | ⟨-, hn, hi, hre⟩ := (b.cellAt r).flags.kind_cases
  · rw [hnumber (by simp [hk]), Cell.value, hk, hn, if_pos rfl]
    exact ⟨.null, t, l, .inl rfl, rfl, h', hlook⟩
  · rw [hnumber (by simp [hk]), Cell.value, hk, hn, hi, if_neg Bool.false_ne_true, if_pos rfl, bind_of_ok hint]
    refine ⟨.int (b.cellAt r).int, t, l, .inl rfl, ?_, h', hlook⟩
    simp only [Record.fieldFor, Serial.length_putWord]
    rfl
  · obtain ⟨a, hreal, hkept⟩ := h'.real_run hr hi
    rw [hnumber (by simp [hk]), Cell.value, hk, hn, hi, hre, if_neg Bool.false_ne_true, if_neg Bool.false_ne_true,
      if_pos rfl, bind_of_ok hreal]
    exact ⟨.real a.toDouble, t, l, .inr ⟨_, _, rfl, rfl, hkept⟩, rfl, h', hlook⟩
  · have hcell : cell r (b.knowing t l) = .ok (b.cellAt r) (b.knowing t l) := rfl
    rw [hn, hi, hre, if_neg Bool.false_ne_true, if_neg Bool.false_ne_true, if_neg Bool.false_ne_true,
      bind_of_ok hcell]
    exact ⟨_, t, l, .inl rfl, congrArg (EStateM.Result.ok · _) (hc.take_of_string hn hi hre format), h', hlook⟩

end Reads

/-- The strings of the registers `S` do not lie in the buffers of other registers of `W`, which may be written to:
the one for the record, and those with zeros that are not written yet. -/
structure Separate (b : Bank) (out : Nat) (S W : Nat → Prop) : Prop where
  outside : ¬ S out
  writes : W out
  counted : ∀ {r}, S r → (b.cellAt r).flags.zero = true → W r
  apart : ∀ {w r}, W w → S r → w ≠ r → (b.cellAt w).Apart (b.cellAt r)
  owns : ∀ {w w' n}, W w → W w' → w ≠ w' → (b.cellAt w).own = some n → (b.cellAt w').own ≠ some n
  named : ∀ {w n}, W w → (b.cellAt w).own = some n → n < b.fresh
  placed : ∀ {r d}, S r → (b.cellAt r).data = some d → d.name < b.fresh

variable {out : Nat} {S W : Nat → Prop} {b' : Bank} {c : Cell}

theorem Became.fresh_le (h : b.Became r c b') : b.fresh ≤ b'.fresh := by
  obtain ⟨hfresh, -⟩ | hfresh := h.fresh <;> omega

theorem Became.of_knowing {t : Sheet} {l : Ledger} (h : (b.knowing t l).Became r c b') : b.Became r c b' :=
  ⟨h.cells.trans (cells_put_congr (a := b.knowing t l) (d := b) rfl r c), h.reach, h.fresh⟩

theorem Became.size (h : b.Became r c b') : b'.cells.size = b.cells.size := by rw [h.cells, size_put]

theorem Became.self (h : b.Became r c b') (hlt : r < b.cells.size) : b'.cellAt r = c := by
  rw [h.cellAt, cellAt_put hlt, if_pos rfl]

theorem Became.own (h : b.Became r c b') (hlt : r < b.cells.size) {j : Nat} (hj : j ≠ r) :
    (b'.cellAt j).own = (b.cellAt j).own := by
  rw [h.cellAt, own_cellAt_put hlt (Ne.symm hj)]

theorem Separate.kept (h : b.Separate out S W) (hlt : r < b.cells.size) (hb : b.Became r c b')
    (hc : (b.cellAt r).Retains c) : b'.Separate out S W ∧ ∀ j, j ≠ r → b'.cellAt j = b.cellAt j := by
  have hother (j : Nat) (hj : j ≠ r) : b'.cellAt j = b.cellAt j := by
    rw [hb.cellAt, put_of_string ⟨hc.data, hc.term⟩, cellAt_withCell hlt, if_neg (Ne.symm hj)]
  have hself := hb.self hlt
  have howns (j : Nat) : (b'.cellAt j).own = (b.cellAt j).own := by
    by_cases hj : j = r
    · rw [hj, hself, hc.own]
    · rw [hother j hj]
  have hstrings (j : Nat) : (b'.cellAt j).data = (b.cellAt j).data := by
    by_cases hj : j = r
    · rw [hj, hself, hc.data]
    · rw [hother j hj]
  refine ⟨⟨h.outside, h.writes, fun {j} hj hz => ?_, fun {w j} hw hj hne d hd => ?_, fun {w w' n} hw hw' hne hn => ?_,
    fun {w n} hw hn => ?_, fun {j d} hj hd => ?_⟩, hother⟩
  · by_cases hjr : j = r
    · subst hjr
      rw [hself] at hz
      exact h.counted hj (hc.zero hz)
    · rw [hother j hjr] at hz
      exact h.counted hj hz
  · rw [hstrings] at hd
    rw [howns]
    exact h.apart hw hj hne d hd
  · rw [howns] at hn ⊢
    exact h.owns hw hw' hne hn
  · rw [howns] at hn
    exact Nat.lt_of_lt_of_le (h.named hw hn) hb.fresh_le
  · rw [hstrings] at hd
    exact Nat.lt_of_lt_of_le (h.placed hj hd) hb.fresh_le

/-- A register whose string has been written to its own buffer, which may be a new one. -/
theorem Separate.rebuilt (h : b.Separate out S W) (hr : S r) (hW : W r) (hlt : r < b.cells.size)
    (hb : b.Became r c b') {own : Nat} (hown : c.own = some own)
    (howner : (b.cellAt r).own = some own ∨ own = b.fresh) (hdata : ∀ d, c.data = some d → d.name = own) :
    b'.Separate out S W ∧ ∀ j, S j → j ≠ r → b'.cellAt j = b.cellAt j := by
  have hself := hb.self hlt
  have hother (j : Nat) (hj : S j) (hne : j ≠ r) : b'.cellAt j = b.cellAt j := by
    rw [hb.cellAt, cellAt_put_apart hlt (Ne.symm hne) (h.apart hW hj (Ne.symm hne))]
  -- no other register that may be written to owns the buffer
  have hfree {w : Nat} (hw : W w) (hne : w ≠ r) : (b.cellAt w).own ≠ some own := by
    intro heq
    obtain hmine | rfl := howner
    · exact h.owns hw hW hne heq hmine
    · exact absurd (h.named hw heq) (lt_irrefl _)
  have hbound : own < b'.fresh := by
    obtain ⟨hfresh, hsame⟩ | hfresh := hb.fresh
    · rw [hfresh]
      exact h.named hW (hsame ▸ hown)
    · obtain hmine | rfl := howner
      · exact Nat.lt_of_lt_of_le (h.named hW hmine) hb.fresh_le
      · omega
  refine ⟨⟨h.outside, h.writes, fun {j} hj hz => ?_, fun {w j} hw hj hne d hd => ?_, fun {w w' n} hw hw' hne hn => ?_,
    fun {w n} hw hn => ?_, fun {j d} hj hd => ?_⟩, hother⟩
  · by_cases hjr : j = r
    · subst hjr
      exact hW
    · rw [hother j hj hjr] at hz
      exact h.counted hj hz
  · by_cases hjr : j = r
    · subst hjr
      rw [hself] at hd
      rw [hb.own hlt hne, hdata d hd]
      exact hfree hw hne
    · rw [hother j hj hjr] at hd
      by_cases hwr : w = r
      · subst hwr
        rw [hself, hown]
        rintro ⟨⟩
        obtain hmine | hnew := howner
        · exact h.apart hw hj hne d hd hmine
        · exact absurd (h.placed hj hd) (hnew ▸ lt_irrefl _)
      · rw [hb.own hlt hwr]
        exact h.apart hw hj hne d hd
  · by_cases hwr : w = r
    · subst hwr
      rw [hself, hown] at hn
      cases hn
      rw [hb.own hlt (Ne.symm hne)]
      exact hfree hw' (Ne.symm hne)
    · rw [hb.own hlt hwr] at hn
      by_cases hwr' : w' = r
      · subst hwr'
        rw [hself, hown]
        rintro ⟨⟩
        exact hfree hw hwr hn
      · rw [hb.own hlt hwr']
        exact h.owns hw hw' hne hn
  · by_cases hwr : w = r
    · subst hwr
      rw [hself, hown] at hn
      cases hn
      exact hbound
    · rw [hb.own hlt hwr] at hn
      exact Nat.lt_of_lt_of_le (h.named hw hn) hb.fresh_le
  · by_cases hjr : j = r
    · subst hjr
      rw [hself] at hd
      rw [hdata d hd]
      exact hbound
    · rw [hother j hj hjr] at hd
      exact Nat.lt_of_lt_of_le (h.placed hj hd) hb.fresh_le

theorem Separate.expand (h : b.Separate out S W) (hr : S r) (hlt : r < b.cells.size)
    (hb : b.Became r ((b.cellAt r).expandBlob b.fresh) b') :
    b'.Separate out S W ∧ ∀ j, S j → j ≠ r → b'.cellAt j = b.cellAt j := by
  cases hz : (b.cellAt r).flags.zero with
  | false =>
    rw [Cell.expandBlob_of_not_zero hz] at hb
    obtain ⟨hs, hother⟩ := h.kept hlt hb (.refl _)
    exact ⟨hs, fun j _ => hother j⟩
  | true =>
    obtain ⟨own, hown, howner, hdata⟩ := Cell.expandBlob_of_zero hz b.fresh
    refine h.rebuilt hr (h.counted hr hz) hlt hb hown howner fun d hd => ?_
    rw [hdata] at hd
    cases hd
    rfl

theorem Reads.direct_run {t : Sheet} {l : Ledger} (h : (b.knowing t l).Reads known) (hr : r < b.reach)
    (rule : Nat → Cell → Cell) :
    ∃ b', direct r rule (b.knowing t l) = .ok () b' ∧ b'.Reads known ∧
      b.Became r (rule b.fresh (b.cellAt r)) b' := by
  obtain ⟨b', hrun, hbecame, h'⟩ := Heeds.became h (fun _ => Fact.law_writes _) (Fact.law_writes (known r)) hr rule
  rw [Function.update_eq_self] at h'
  exact ⟨b', hrun, h', hbecame⟩

theorem Reads.expandBlob_run (h : b.Reads known) (hr : r < b.reach) :
    ∃ b', expandBlob r b = .ok () b' ∧ b'.Reads known ∧ b.Became r ((b.cellAt r).expandBlob b.fresh) b' := by
  obtain ⟨t, l, hlook, h₁⟩ := h.flags_run hr
  rw [expandBlob, bind_of_ok hlook]
  cases hz : (b.cellAt r).flags.zero with
  | false =>
    rw [Cell.expandBlob_of_not_zero hz]
    exact ⟨_, rfl, h₁, .refl t l⟩
  | true => exact h₁.direct_run hr Cell.expandBlob

theorem Reads.add_run (h : b.Reads known) {i : Int} (h0 : 0 ≤ i) (hi : i < b.reach)
    (hc : (b.cellAt i.toNat).Recordable) (format : Int) (l : Tracked.Layout) :
    ∃ b', Tracked.Layout.add format l i b = .ok (l.lay format (b.cellAt i.toNat)) b' ∧ b'.Reads known ∧
      b.Became i.toNat
        (if l.isEarly (b.cellAt i.toNat) then b.cellAt i.toNat else (b.cellAt i.toNat).expandBlob b.fresh) b' := by
  have hr : i.toNat < b.reach := by omega
  obtain ⟨t₁, l₁, hlook₁, h₁⟩ := h.flags_run hr
  obtain ⟨t₂, l₂, hform, h₂⟩ := h₁.serialForm_run hr hc format
  rw [knowing_knowing] at hform h₂
  obtain ⟨t₃, l₃, hlook₃, h₃⟩ := h₂.flags_run hr
  rw [knowing_knowing] at hlook₃ h₃
  have hvalid : isValid i.toNat b = .ok true (b.knowing t₁ l₁) := by
    rw [isValid, bind_of_ok hlook₁, hc.defined]
    rfl
  have hpass : (check true : BankM Unit) (b.knowing t₁ l₁) = .ok () (b.knowing t₁ l₁) := rfl
  rw [Tracked.Layout.add, bind_of_ok (register_run h0 hi), bind_of_ok hvalid, bind_of_ok hpass,
    bind_of_ok hform]
  dsimp only
  rw [bind_of_ok hlook₃, Tracked.Layout.lay, Tracked.Layout.isEarly, cellAt_knowing]
  cases hz : (b.cellAt i.toNat).flags.zero with
  | false =>
    rw [Bool.false_and, if_neg Bool.false_ne_true, if_neg Bool.false_ne_true, if_neg Bool.false_ne_true,
      if_neg Bool.false_ne_true, Cell.expandBlob_of_not_zero hz, Int.sub_zero]
    exact ⟨_, rfl, h₃, .refl t₃ l₃⟩
  | true =>
    rw [Bool.true_and, if_pos rfl]
    by_cases hdata : l.data = 0
    · have hread := cell_run (b.knowing t₃ l₃) i.toNat
      rw [bne_eq_false_iff_eq.mpr hdata, beq_iff_eq.mpr hdata, if_neg Bool.false_ne_true, bind_of_ok hread, if_pos rfl,
        if_pos rfl, if_pos rfl]
      exact ⟨_, rfl, h₃, .refl t₃ l₃⟩
    · obtain ⟨b', hrun, h₄, hbecame⟩ := h₃.expandBlob_run hr
      rw [bne_iff_ne.mpr hdata, beq_false_of_ne hdata, if_pos rfl, bind_of_ok hrun, if_neg Bool.false_ne_true,
        if_neg Bool.false_ne_true, if_neg Bool.false_ne_true, Int.sub_zero]
      exact ⟨b', rfl, h₄, hbecame.of_knowing⟩

theorem Separate.laid (h : b.Separate out S W) (hr : S r) (hlt : r < b.cells.size) (hc : (b.cellAt r).Recordable)
    {early : Bool} (hb : b.Became r (if early then b.cellAt r else (b.cellAt r).expandBlob b.fresh) b') :
    b'.Separate out S W ∧ (∀ j, S j → j ≠ r → b'.cellAt j = b.cellAt j) ∧ (b'.cellAt r).Recordable ∧
      (b'.cellAt r).rawValue = if early then (b.cellAt r).rawValue else (b.cellAt r).fullValue := by
  cases early with
  | true =>
    obtain ⟨hs, hother⟩ := h.kept hlt hb (.refl _)
    rw [hb.self hlt]
    exact ⟨hs, fun j _ => hother j, hc, rfl⟩
  | false =>
    obtain ⟨hs, hother⟩ := h.expand hr hlt hb
    rw [hb.self hlt]
    exact ⟨hs, hother, hc.expandBlob _, hc.rawValue_expandBlob _⟩

/-- Registers that are different ones, are there and can be written. -/
structure Fields (b : Bank) (S : Nat → Prop) (regs : List Int) : Prop where
  nodup : regs.Nodup
  inside : ∀ i ∈ regs, 0 ≤ i ∧ i < b.reach
  among : ∀ i ∈ regs, S i.toNat
  recordable : ∀ i ∈ regs, (b.cellAt i.toNat).Recordable

theorem Fields.congr {regs : List Int} (h : b.Fields S regs) (hreach : b'.reach = b.reach)
    (hsame : ∀ i ∈ regs, b'.cellAt i.toNat = b.cellAt i.toNat) : b'.Fields S regs where
  nodup := h.nodup
  inside := by
    rw [hreach]
    exact h.inside
  among := h.among
  recordable i hi := by
    rw [hsame i hi]
    exact h.recordable i hi

theorem Fields.of_cons {i : Int} {regs : List Int} (h : b.Fields S (i :: regs)) : b.Fields S regs where
  nodup := (List.nodup_cons.mp h.nodup).2
  inside j hj := h.inside j (List.mem_cons_of_mem i hj)
  among j hj := h.among j (List.mem_cons_of_mem i hj)
  recordable j hj := h.recordable j (List.mem_cons_of_mem i hj)

theorem Fields.ne_head {i : Int} {regs : List Int} (h : b.Fields S (i :: regs)) :
    ∀ j ∈ regs, j.toNat ≠ i.toNat := by
  intro j hj
  have hij : j ≠ i := fun heq => (List.nodup_cons.mp h.nodup).1 (heq ▸ hj)
  have := h.inside i List.mem_cons_self
  have := h.inside j (List.mem_cons_of_mem i hj)
  omega

theorem Fields.tail {i : Int} {regs : List Int} (h : b.Fields S (i :: regs)) (hreach : b'.reach = b.reach)
    (hother : ∀ j, S j → j ≠ i.toNat → b'.cellAt j = b.cellAt j) :
    b'.Fields S regs ∧ (regs.map fun j => b'.cellAt j.toNat) = regs.map fun j => b.cellAt j.toNat := by
  have hsame (j : Int) (hj : j ∈ regs) : b'.cellAt j.toNat = b.cellAt j.toNat :=
    hother j.toNat (h.among j (List.mem_cons_of_mem i hj)) (h.ne_head j hj)
  exact ⟨h.of_cons.congr hreach hsame, List.map_congr_left hsame⟩

theorem Reads.layout_run (h : b.Reads known) (hs : b.Separate out S W) {regs : List Int} (hf : b.Fields S regs)
    (format : Int) (l : Tracked.Layout) :
    let cells := regs.map fun i => b.cellAt i.toNat
    ∃ b', regs.foldlM (Tracked.Layout.add format) l b = .ok (cells.foldl (Tracked.Layout.lay format) l) b' ∧
      b'.Reads known ∧ b'.Separate out S W ∧ b'.Fields S regs ∧ b'.reach = b.reach ∧ b'.cells.size = b.cells.size ∧
      (regs.map fun i => (b'.cellAt i.toNat).rawValue) = l.sources format cells ∧
      ∀ j, S j → (∀ i ∈ regs, i.toNat ≠ j) → b'.cellAt j = b.cellAt j := by
  induction regs generalizing b l with
  | nil => exact ⟨b, rfl, h, hs, hf, rfl, rfl, rfl, fun _ _ _ => rfl⟩
  | cons i regs ih =>
    obtain ⟨h0, hi⟩ := hf.inside i List.mem_cons_self
    have hS := hf.among i List.mem_cons_self
    have hc := hf.recordable i List.mem_cons_self
    have hlt : i.toNat < b.cells.size := Heeds.lt_size h (by omega)
    obtain ⟨b₁, hadd, h₁, hbecame⟩ := h.add_run h0 hi hc format l
    obtain ⟨hs₁, hother₁, hself, hvalue⟩ := hs.laid hS hlt hc hbecame
    obtain ⟨hf₁, hcells⟩ := hf.tail hbecame.reach hother₁
    obtain ⟨b', hrun, h', hs', hf', hreach, hsize, hraw, hother⟩ := ih h₁ hs₁ hf₁ (l.lay format (b.cellAt i.toNat))
    have hlast : b'.cellAt i.toNat = b₁.cellAt i.toNat := hother i.toNat hS (hf.ne_head)
    rw [hcells] at hrun hraw
    refine ⟨b', ?_, h', hs', ⟨hf.nodup, fun j hj => ?_, hf.among, fun j hj => ?_⟩, hreach.trans hbecame.reach,
      hsize.trans hbecame.size, ?_, fun j hj hne => ?_⟩
    · rw [List.foldlM_cons, bind_of_ok hadd, hrun]
      rfl
    · rw [hreach, hbecame.reach]
      exact hf.inside j hj
    · obtain rfl | hj := List.mem_cons.mp hj
      · rw [hlast]
        exact hself
      · exact hf'.recordable j hj
    · rw [List.map_cons, List.map_cons, Tracked.Layout.sources, hlast, hvalue, hraw]
    · rw [hother j hj fun k hk => hne k (List.mem_cons_of_mem i hk),
        hother₁ j hj (Ne.symm (hne i List.mem_cons_self))]

/-- Nothing is known about a register. -/
def Blank (b : Bank) (r : Nat) : Prop := ∃ t, b.Keeps t ∧ (t.fact r).known = .nothing

theorem Blank.of_flags_run (h : b.Blank out) (hr : r < b.cells.size) (hne : r ≠ out) {f : Flags}
    (hrun : flags r b = .ok f b') : b'.Blank out := by
  obtain ⟨t, hk, hnothing⟩ := h
  have htrue (g : Flags) (hg : (t.fact r).flags? = some g) : g = (b.cellAt r).flags := by
    by_contra hfalse
    rw [hk.flags_run_of_false hg hfalse] at hrun
    cases hrun
  obtain ⟨b₁, hrun₁, t₁, l, rfl, hk₁, hs⟩ := hk.flags_run htrue
  cases hrun.symm.trans hrun₁
  have hlike := hk.fact_noted hr hs out
  rw [if_neg (fun hc => hne hc.1)] at hlike
  exact ⟨t₁, hk₁, by rw [hlike.known, hnothing]⟩

theorem blank_of_direct_run {t : Sheet} (hk : b.Keeps t) (hr : r < b.cells.size) {rule : Nat → Cell → Cell}
    (hrun : direct r rule b = .ok () b') : b'.Blank r := by
  obtain ⟨b₁, hforget, t₁, l, rfl, hk₁, hs⟩ := hk.invalidate_run r
  have hrun₁ : direct r rule b = _ := (bind_of_ok hforget).trans (modifyCellWith_run _ _ _)
  cases hrun.symm.trans hrun₁
  refine ⟨t₁, hk₁.renewed.put r _, ?_⟩
  have hlike := hk.fact_noted hr hs r
  split at hlike
  · rw [hlike.known, Fact.forget_known]
  · rename_i hc
    rw [hlike.known, hk.fact_unused (by simpa using hc)]

theorem Reads.put_of_blank (h : b.Reads known) (hb : b.Blank out) (hlt : out < b.cells.size) (c : Cell) :
    (b.put out c).Reads known := by
  obtain ⟨t, hk, hreach, ht⟩ := h
  obtain ⟨t', hk', hnothing⟩ := hb
  obtain rfl : t' = t := Option.some.inj (hk'.current.symm.trans hk.current)
  refine ⟨t', hk.put out c, by rwa [reach_put, size_put], fun j hj => ?_⟩
  rw [reach_put] at hj
  by_cases hjo : out = j
  · subst hjo
    exact (Fact.law_writes _).nothing hnothing
  · rw [cellAt_put hlt, if_neg hjo]
    split
    · exact (Fact.law_writes _).parts (ht j hj) (Cell.flags_seeing _ _) (Cell.payload_seeing _ _)
    · exact ht j hj

theorem Reads.contents_run (h : b.Reads known) {regs : List Int} (hf : b.Fields S regs) (hout : ¬ S out)
    (hb : b.Blank out) (format : Int) :
    ∃ values t l, List.Forall₂ (fun i w => (b.cellAt i.toNat).rawValue.Kept (known i.toNat) w) regs values ∧
      Tracked.contents (regs.zip (regs.map fun i => formOf (Record.fieldFor format (b.cellAt i.toNat).rawValue))) b =
        .ok (Record.contentsOf (values.map (Record.fieldFor format))) (b.knowing t l) ∧
      (b.knowing t l).Reads known ∧ (b.knowing t l).Blank out := by
  induction regs generalizing b with
  | nil =>
    have ⟨t, hk, _⟩ := h
    refine ⟨[], t, b.ledger, .nil, ?_⟩
    rw [hk.knowing_self]
    exact ⟨rfl, h, hb⟩
  | cons i regs ih =>
    obtain ⟨h0, hi⟩ := hf.inside i List.mem_cons_self
    have hr : i.toNat < b.reach := by omega
    have hne : i.toNat ≠ out := fun heq => hout (heq ▸ hf.among i List.mem_cons_self)
    obtain ⟨w, t₁, l₁, hkept, hbytes, h₁, hlook⟩ := h.serialBytes_run hr (hf.recordable i List.mem_cons_self) format
    have hb₁ := hb.of_flags_run (Heeds.lt_size h hr) hne hlook
    have hf₁ : (b.knowing t₁ l₁).Fields S regs := hf.of_cons.congr rfl fun _ _ => rfl
    obtain ⟨values, t, l, hvalues, hrun, h', hb'⟩ := ih h₁ hf₁ hb₁
    rw [knowing_knowing] at hrun h' hb'
    simp only [cellAt_knowing] at hvalues hrun
    refine ⟨w :: values, t, l, .cons hkept hvalues, ?_, h', hb'⟩
    have hlen (f : Field) : (formOf f).length.toNat = f.bytes.length := Int.toNat_natCast _
    rw [List.map_cons, List.zip_cons_cons, Tracked.contents, bind_of_ok (register_run h0 hi), hlen,
      bind_of_ok hbytes, bind_of_ok hrun, List.map_cons, Record.contentsOf_cons]
    rfl

theorem Heeds.withCell {P : Nat → Fact → Cell → Prop} (h : b.Heeds P) (hr : r < b.cells.size) {c : Cell}
    (hc : ∀ f, P r f (b.cellAt r) → P r f c) : (b.withCell r c).Heeds P := by
  obtain ⟨t, hk, hreach, ht⟩ := h
  refine ⟨t, hk.withCell r c, by rwa [size_withCell], fun j hj => ?_⟩
  rw [cellAt_withCell hr]
  split
  · rename_i hrj
    subst hrj
    exact hc _ (ht r hj)
  · exact ht j hj

theorem Reads.store_run (h : b.Reads known) (hb : b.Blank out) (hout : out < b.reach) (c : Cell) (zeros : Int) :
    ∃ b', (do
        putCell out c
        setFlags out .onlyBlob
        if zeros != 0 then
          modifyCell out fun c => { c with payload := Content.withZeros c.payload zeros }
          setFlags out { blob := true, zero := true }) b = .ok () b' ∧
      b'.cellAt out =
        if zeros = 0 then c.withFlags .onlyBlob
        else (c.withPayload (Content.withZeros c.payload zeros)).withFlags { blob := true, zero := true } := by
  have hlt := Heeds.lt_size h hout
  have hput := h.put_of_blank hb hlt c
  have hcell : (b.put out c).cellAt out = c := by rw [cellAt_put hlt, if_pos rfl]
  have hlt' : out < (b.put out c).cells.size := by rwa [size_put]
  obtain ⟨t, l, hmark, h₁⟩ := Heeds.setFlags_run hput (fun _ => Fact.law_writes _) Fact.law_honest
    (by rwa [reach_put]) .onlyBlob fun f _ => f.honest_noteFlags _ _
  rw [hcell] at hmark h₁
  rw [bind_of_ok (putCell_run _ _ _), bind_of_ok hmark]
  by_cases hz : zeros = 0
  · rw [hz]
    refine ⟨_, rfl, ?_⟩
    rw [if_pos rfl, cellAt_knowing, cellAt_withCell_self hlt']
  · rw [bne_iff_ne.mpr hz, if_pos rfl, if_neg hz, bind_of_ok (modifyCell_run _ _ _), cellAt_knowing,
      cellAt_withCell_self hlt']
    have hlaw (j : Nat) : Fact.Law (Function.update (fun r => Fact.Writes (known r)) out Fact.Honest j) :=
      law_update (fun _ => Fact.law_writes _) Fact.law_honest out j
    have hlt₁ : out < (((b.put out c).withCell out (c.withFlags .onlyBlob)).knowing t l).cells.size := by
      show out < ((b.put out c).withCell out (c.withFlags .onlyBlob)).cells.size
      rwa [size_withCell]
    have h₂ := h₁.withCell (c := (c.withFlags .onlyBlob).withPayload (Content.withZeros c.payload zeros)) hlt₁
      fun f hf => by
        rw [Function.update_self, cellAt_knowing, cellAt_withCell_self hlt'] at hf
        rw [Function.update_self]
        exact hf
    obtain ⟨t₂, l₂, hmark₂, -⟩ := h₂.setFlags_run hlaw Fact.law_honest (show out < (b.put out c).reach by rwa [reach_put])
      { blob := true, zero := true } fun f _ => f.honest_noteFlags _ _
    rw [cellAt_withCell_self hlt₁] at hmark₂
    refine ⟨_, hmark₂, ?_⟩
    rw [cellAt_knowing, cellAt_withCell_self (by rwa [size_withCell])]
    rfl

/-- The values that are written for registers, with a zero for a zero of which something is known. -/
def Written (known : Nat → Bool) (regs : List Int) (sources values : List Value) : Prop :=
  List.Forall₂ (fun p w => Value.Kept (known p.1.toNat) p.2 w) (regs.zip sources) values

theorem written_map_iff {regs : List Int} {source : Int → Value} {values : List Value} :
    Written known regs (regs.map source) values ↔
      List.Forall₂ (fun i w => (source i).Kept (known i.toNat) w) regs values := by
  rw [Written, ← List.map_prod_left_eq_zip, List.forall₂_map_left_iff]

theorem types_of_kept (format : Int) {regs : List Int} {source : Int → Value} {values : List Value}
    (h : List.Forall₂ (fun i w => (source i).Kept (known i.toNat) w) regs values)
    (hs : ∀ i ∈ regs, Record.Short (source i)) :
    (∀ w ∈ values, Record.Short w) ∧ (values.map fun w => (Record.fieldFor format w).type) =
      (regs.map source).map fun v => (Record.fieldFor format v).type := by
  induction h with
  | nil => exact ⟨by simp, rfl⟩
  | cons hkept _ ih =>
    obtain ⟨hshort, htypes⟩ := ih fun i hi => hs i (List.mem_cons_of_mem _ hi)
    refine ⟨fun w hw => ?_, ?_⟩
    · obtain rfl | hw := List.mem_cons.mp hw
      · exact hkept.short (hs _ List.mem_cons_self)
      · exact hshort w hw
    · rw [List.map_cons, List.map_cons, List.map_cons, hkept.type, htypes]

theorem Reads.makeRecord_of_layout {b₁ : Bank} (h₁ : b₁.Reads known) {i : Instruction} (hout : 0 ≤ i.p3 ∧ i.p3 < b.reach)
    {regs : List Int} (hregs : Instruction.span i.p1 i.p2 = regs) (hf₁ : b₁.Fields S regs) (hS : ¬ S i.p3.toNat)
    (hapart : ∀ r, S r → (b₁.cellAt i.p3.toNat).Apart (b₁.cellAt r)) (hp4 : i.p4.text? = none) (hcount : i.p2 ≤ 2147483647)
    (format : Int) {cells : List Cell} (hrecordable : ∀ c ∈ cells, c.Recordable) {layout : Tracked.Layout}
    (hlay : cells.foldl (Tracked.Layout.lay format) {} = layout)
    (hlayout : regs.foldlM (Tracked.Layout.add format) {} b = .ok layout b₁) (hreach : b₁.reach = b.reach)
    (hraw : (regs.map fun r => (b₁.cellAt r.toNat).rawValue) = Tracked.Layout.sources format {} cells) :
    ∃ values b', Written known regs (Tracked.Layout.sources format {} cells) values ∧
      Tracked.makeRecord format i b = .ok () b' ∧
      (b'.cellAt i.p3.toNat).Stores (Record.encode (values.map (Record.fieldFor format)))
        (Record.headerLength layout.header + layout.data).toNat layout.zeros ∧
      Record.headerLength layout.header + layout.data =
        (Record.encode (values.map (Record.fieldFor format))).length -
          2 * Tracked.Layout.missing format {} cells := by
  have hr : i.p3.toNat < b₁.reach := by omega
  have ⟨t₁, hk₁, _⟩ := h₁
  have hlt : i.p3.toNat < b₁.cells.size := Heeds.lt_size h₁ hr
  -- the buffer for the record
  obtain ⟨b₂, hgrow, h₂, hbecame⟩ := Reads.direct_run (b := b₁) (t := t₁) (l := b₁.ledger)
    (by rwa [hk₁.knowing_self]) hr
    fun name => Cell.grow name (Record.headerLength layout.header + layout.data).toNat false
  rw [hk₁.knowing_self] at hgrow
  have hblank := blank_of_direct_run hk₁ hlt hgrow
  have hsame (r : Int) (hr : r ∈ regs) : b₂.cellAt r.toNat = b₁.cellAt r.toNat := by
    have hne : i.p3.toNat ≠ r.toNat := fun heq => hS (heq ▸ hf₁.among r hr)
    rw [hbecame.cellAt, cellAt_put_apart hlt hne (hapart _ (hf₁.among r hr))]
  obtain ⟨buffer, hdata⟩ : ∃ buffer, (b₂.cellAt i.p3.toNat).data = some buffer := by
    rw [hbecame.cellAt, cellAt_put hlt, if_pos rfl]
    exact Cell.data_grow _ _ _ _
  have hf₂ := hf₁.congr hbecame.reach hsame
  obtain ⟨values, t₃, l₃, hvalues, hcontents, h₃, hblank₃⟩ := h₂.contents_run hf₂ hS hblank format
  -- what is written is laid out as the values with their zeros
  have hraw₂ : (regs.map fun r => (b₂.cellAt r.toNat).rawValue) = Tracked.Layout.sources format {} cells := by
    rw [← hraw]
    exact List.map_congr_left fun r hr => by rw [hsame r hr]
  obtain ⟨hshort, hkept⟩ := types_of_kept format hvalues fun r hr => (hf₂.recordable r hr).short_raw
  have hn : values.length ≤ 2147483647 := by
    rw [← hvalues.length_eq, ← hregs, Instruction.span, List.length_map, List.length_range]
    omega
  rw [hraw₂] at hkept
  obtain ⟨hforms, htypes, hheader, hlength⟩ := Tracked.Layout.fits_values hrecordable hshort hn hkept
  rw [hlay] at hforms htypes hheader hlength
  rw [← hraw₂, List.map_map] at hforms
  obtain ⟨b', hstore, hcell⟩ := h₃.store_run hblank₃ (show i.p3.toNat < b₂.reach by rwa [hbecame.reach])
    { (b₂.cellAt i.p3.toNat).fill (Record.encode (values.map (Record.fieldFor format))) with
      size := (Record.headerLength layout.header + layout.data).toNat, flags := .onlyBlob } layout.zeros
  refine ⟨values, b', hraw₂ ▸ written_map_iff.mpr hvalues, ?_, ?_, hlength⟩
  · have hcheck (n : Nat) (b : Bank) : (check (n == n) : BankM Unit) b = .ok () b := by
      rw [beq_self_eq_true]
      rfl
    have hencode : Varint.encode (Record.headerLength layout.header) ++
        Record.typesOf (values.map (Record.fieldFor format)) ++
          Record.contentsOf (values.map (Record.fieldFor format)) =
        Record.encode (values.map (Record.fieldFor format)) := by
      rw [Record.encode_eq, Record.header, hheader]
    have hforms' : (regs.map fun r => formOf (Record.fieldFor format (b₂.cellAt r.toNat).rawValue)) = layout.forms :=
      hforms.symm
    rw [hforms'] at hcontents
    simp only [Tracked.makeRecord, hregs, bind_of_ok (register_run hout.1 hout.2), hp4, bind_of_ok hlayout]
    refine (bind_of_ok (show grow _ _ _ b₁ = _ from hgrow)).trans ((bind_of_ok hcontents).trans ?_)
    rw [htypes, ← hheader, Record.headerLength_eq, bind_of_ok (hcheck _ _), hencode]
    exact (bind_of_ok (cell_run _ _)).trans hstore
  · rw [hcell]
    have hfill (c : Cell) (hc : c.data = some buffer) (record : Bytes) :
        (c.fill record).data.map (·.bytes) = some record := by
      rw [Cell.fill, hc]
      rfl
    split
    · rename_i hz
      exact ⟨hfill _ hdata _, rfl, (if_pos hz).symm, fun hnot => absurd hz hnot⟩
    · rename_i hz
      exact ⟨hfill _ hdata _, rfl, (if_neg hz).symm, fun _ => wrapHalf_withZeros _ _⟩

theorem Reads.makeRecord_run (h : b.Reads known) {i : Instruction} (hout : 0 ≤ i.p3 ∧ i.p3 < b.reach)
    (hs : b.Separate i.p3.toNat S W) {regs : List Int} (hregs : Instruction.span i.p1 i.p2 = regs) (hf : b.Fields S regs)
    (hp4 : i.p4.text? = none) (hcount : i.p2 ≤ 2147483647) (format : Int) {cells : List Cell}
    (hcells : (regs.map fun r => b.cellAt r.toNat) = cells) {layout : Tracked.Layout}
    (hlay : cells.foldl (Tracked.Layout.lay format) {} = layout) :
    ∃ values b', Written known regs (Tracked.Layout.sources format {} cells) values ∧
      Tracked.makeRecord format i b = .ok () b' ∧
      (b'.cellAt i.p3.toNat).Stores (Record.encode (values.map (Record.fieldFor format)))
        (Record.headerLength layout.header + layout.data).toNat layout.zeros ∧
      Record.headerLength layout.header + layout.data =
        (Record.encode (values.map (Record.fieldFor format))).length -
          2 * Tracked.Layout.missing format {} cells := by
  obtain ⟨b₁, hlayout, h₁, hs₁, hf₁, hreach, -, hraw, -⟩ := h.layout_run hs hf format ({} : Tracked.Layout)
  rw [hcells] at hlayout hraw
  rw [hlay] at hlayout
  have hrecordable : ∀ c ∈ cells, c.Recordable := by
    rw [← hcells]
    intro c hc
    obtain ⟨r, hr, rfl⟩ := List.mem_map.mp hc
    exact hf.recordable r hr
  exact h₁.makeRecord_of_layout hout hregs hf₁ hs₁.outside
    (fun r hr => hs₁.apart hs₁.writes hr fun heq => hs₁.outside (heq ▸ hr)) hp4 hcount format hrecordable hlay hlayout hreach hraw

theorem Reads.expandAll_run (h : b.Reads known) (hs : b.Separate out S W) {regs : List Int} (hf : b.Fields S regs) :
    ∃ b', (forM regs fun r => do expandBlob (← register r)) b = .ok () b' ∧ b'.Reads known ∧ b'.Separate out S W ∧
      b'.Fields S regs ∧ b'.reach = b.reach ∧
      (∀ r ∈ regs, (b'.cellAt r.toNat).flags.zero = false ∧
        (b'.cellAt r.toNat).fullValue = (b.cellAt r.toNat).fullValue) ∧
      ∀ j, S j → (∀ i ∈ regs, i.toNat ≠ j) → b'.cellAt j = b.cellAt j := by
  induction regs generalizing b with
  | nil => exact ⟨b, rfl, h, hs, hf, rfl, by simp, fun _ _ _ => rfl⟩
  | cons i regs ih =>
    obtain ⟨h0, hi⟩ := hf.inside i List.mem_cons_self
    have hr : i.toNat < b.reach := by omega
    have hS := hf.among i List.mem_cons_self
    have hc := hf.recordable i List.mem_cons_self
    have hlt : i.toNat < b.cells.size := Heeds.lt_size h hr
    obtain ⟨b₁, hrun₁, h₁, hbecame⟩ := h.expandBlob_run hr
    obtain ⟨hs₁, hother₁⟩ := hs.expand hS hlt hbecame
    have hself := hbecame.self hlt
    obtain ⟨hf₁, -⟩ := hf.tail hbecame.reach hother₁
    obtain ⟨b', hrun, h', hs', hf', hreach, hwritten, hother⟩ := ih h₁ hs₁ hf₁
    have hlast : b'.cellAt i.toNat = (b.cellAt i.toNat).expandBlob b.fresh :=
      (hother i.toNat hS hf.ne_head).trans hself
    refine ⟨b', ?_, h', hs', ⟨hf.nodup, fun j hj => ?_, hf.among, fun j hj => ?_⟩, hreach.trans hbecame.reach,
      fun j hj => ?_, fun j hj hne => ?_⟩
    · rw [List.forM_cons, bind_assoc, bind_of_ok (register_run h0 hi), bind_of_ok hrun₁]
      exact hrun
    · rw [hreach, hbecame.reach]
      exact hf.inside j hj
    · obtain rfl | hj := List.mem_cons.mp hj
      · rw [hlast]
        exact hc.expandBlob _
      · exact hf'.recordable j hj
    · obtain rfl | hj := List.mem_cons.mp hj
      · rw [hlast]
        exact ⟨Cell.zero_expandBlob _ _, hc.fullValue_expandBlob _⟩
      · obtain ⟨hzero, hvalue⟩ := hwritten j hj
        rw [hother₁ j.toNat (hf.among j (List.mem_cons_of_mem i hj)) (hf.ne_head j hj)] at hvalue
        exact ⟨hzero, hvalue⟩
    · rw [hother j hj fun k hk => hne k (List.mem_cons_of_mem i hk),
        hother₁ j hj (Ne.symm (hne i List.mem_cons_self))]

end Bank

end QueryMachine
