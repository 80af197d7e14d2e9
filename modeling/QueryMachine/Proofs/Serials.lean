import Mathlib
import QueryMachine.Proofs.Accesses
import QueryMachine.Proofs.Columns
import QueryMachine.Step.Record

/-!
How registers are written in a record. An integer comes back whatever type it was written with, which is the least one for all
but a few integers. Of a double that is known, a zero may be written as the other zero.
-/

namespace QueryMachine

namespace Record

/-- How a value is written by the tracked rules. -/
def fieldFor (format : Int) : Value → Field
  | .null => ⟨0, []⟩
  | .int n =>
    let t := Serial.intType n format
    ⟨t, Serial.putWord (intToWord n) (Serial.typeLength t)⟩
  | .real x => ⟨7, Serial.putWord x.bits 8⟩
  | .text b => ⟨Serial.stringType true b.length, b⟩
  | .blob b => ⟨Serial.stringType false b.length, b⟩

theorem intType_cases (n format : Int) (hn : fitsWord n = true) :
    let t := Serial.intType n format
    t = 8 ∧ n = 0 ∨ t = 9 ∧ n = 1 ∨ 1 ≤ t ∧ t ≤ 6 ∧
      -(256 ^ Serial.typeLength t : Int) ≤ 2 * n ∧ 2 * n < 256 ^ Serial.typeLength t := by
  simp only [fitsWord, minWord, maxWord, Bool.and_eq_true, decide_eq_true_eq] at hn
  simp only [Serial.intType, Serial.magnitudeType]
  split
  · simp only [Serial.typeLength, Serial.fixedLengths]
    norm_num
    omega
  · split
    · split
      · rename_i h
        simp only [Bool.and_eq_true, decide_eq_true_eq] at h
        exact .inl ⟨rfl, h.2⟩
      · split
        · rename_i h
          simp only [Bool.and_eq_true, decide_eq_true_eq] at h
          exact .inr (.inl ⟨rfl, h.2⟩)
        · simp only [Serial.typeLength, Serial.fixedLengths]
          norm_num
          omega
    · split_ifs <;> simp only [Serial.typeLength, Serial.fixedLengths] <;> norm_num <;> omega

/-- Strings that a register can hold, and all other values. -/
def Short : Value → Prop
  | .text b | .blob b => b.length ≤ 2147483647
  | _ => True

variable {format : Int} {v : Value}

theorem get_putWord {n : Int} {t : Nat}
    (h : t = 8 ∧ n = 0 ∨ t = 9 ∧ n = 1 ∨ 1 ≤ t ∧ t ≤ 6 ∧
      -(256 ^ Serial.typeLength t : Int) ≤ 2 * n ∧ 2 * n < 256 ^ Serial.typeLength t) :
    Serial.get t (Serial.putWord (intToWord n) (Serial.typeLength t)) = .int n := by
  rcases h with ⟨rfl, rfl⟩ | ⟨rfl, rfl⟩ | ⟨h1, h6, hmin, hmax⟩
  · rfl
  · rfl
  · have hlen : Serial.typeLength t ≤ 8 := by interval_cases t <;> decide
    have hread := Serial.getInt_putWord hlen hmin hmax
    simp [Serial.get, show ¬ 12 ≤ t by omega, show t ≠ 8 by omega, show t ≠ 9 by omega,
      show t ≠ 7 by omega, h1, h6, hread]

/-- The least integers of one, two, three, four and six bytes. -/
def leastOfWidths : List Int := [-128, -32768, -8388608, -2147483648, -140737488355328]

/-- A least integer of its width takes the next wider type. -/
theorem intType_of_mem {n : Int} (h : n ∈ leastOfWidths) (format : Int) :
    Serial.intType n format = Serial.leastIntType n format + 1 := by
  simp only [leastOfWidths, List.mem_cons, List.not_mem_nil, or_false] at h
  obtain rfl | rfl | rfl | rfl | rfl := h <;> simp [Serial.intType, Serial.leastIntType, Serial.magnitudeType]

theorem intType_of_bit {n : Int} (h : n = 0 ∨ n = 1) :
    Serial.intType n 4 = 1 ∧ Serial.leastIntType n 4 = 8 + n.toNat := by
  obtain rfl | rfl := h <;> exact ⟨rfl, rfl⟩

/-- Between two magnitudes the type only changes behind the greatest one of a width. -/
theorem magnitudeType_succ {u : Nat} (h : -(u : Int) - 1 ∉ leastOfWidths) :
    Serial.magnitudeType (u + 1) = Serial.magnitudeType u := by
  simp only [leastOfWidths, List.mem_cons, List.not_mem_nil, or_false] at h
  simp only [Serial.magnitudeType]
  split_ifs <;> omega

theorem intType_of_not_mem {n format : Int} (hmem : n ∉ leastOfWidths) (hbit : ¬ (format = 4 ∧ (n = 0 ∨ n = 1))) :
    Serial.intType n format = Serial.leastIntType n format := by
  rcases lt_or_ge n 0 with hn | hn
  · obtain ⟨u, rfl⟩ : ∃ u : Nat, n = -(u : Int) - 1 := ⟨(-n - 1).toNat, by omega⟩
    have hmagnitude : (-(u : Int) - 1).natAbs = u + 1 ∧ (-(-(u : Int) - 1) - 1).toNat = u := by omega
    have hleast : -(u : Int) - 1 ≠ -128 ∧ -(u : Int) - 1 ≠ -140737488355328 := by
      constructor <;> rintro h <;> exact hmem (h ▸ by decide)
    simp only [Serial.intType, Serial.leastIntType, if_pos hn, hmagnitude, magnitudeType_succ hmem, Bool.and_eq_true,
      decide_eq_true_eq]
    have hwide : -(u : Int) - 1 < -140737488355327 → Serial.magnitudeType u = 6 := by
      intro hwide
      simp only [Serial.magnitudeType]
      split_ifs <;> omega
    split_ifs <;> omega
  · obtain ⟨u, rfl⟩ := Int.eq_ofNat_of_zero_le hn
    have hwide : ¬ (u : Int) < -140737488355327 := by omega
    simp only [Serial.intType, Serial.leastIntType, if_neg hwide, if_neg hn.not_gt, Int.natAbs_natCast, Int.toNat_natCast,
      Bool.and_eq_true, decide_eq_true_eq]
    split_ifs <;> omega

theorem fixedLength?_of_lt {t : Nat} (h : t < 12) : Serial.fixedLength? t = some (Serial.typeLength t) := by
  interval_cases t <;> rfl

/-- An integer is read back as it was written, whatever format the file has. Its type is the least one, but for the least
integers of each width, which take the next wider type, and for zero and one in a file of format four, which take a byte. -/
theorem integer_read_back_from_its_type (w : UInt64) (format : Int) : ∃ n t length,
    n = wordToInt w ∧ t = Serial.intType n format ∧ Serial.fixedLength? t = some length ∧
    Serial.get t (Serial.putWord w length) = .int n ∧
    (t ≠ Serial.leastIntType n format ↔ n ∈ leastOfWidths ∨ format = 4 ∧ (n = 0 ∨ n = 1)) ∧
    (n ∈ leastOfWidths → t = Serial.leastIntType n format + 1 ∧ t ≤ 6) ∧
    (format = 4 → n = 0 ∨ n = 1 → t = 1 ∧ Serial.leastIntType n format = 8 + n.toNat) := by
  have hcases := intType_cases (wordToInt w) format (fitsWord_wordToInt w)
  refine ⟨_, _, _, rfl, rfl, fixedLength?_of_lt ?_, ?_, ⟨fun hne => ?_, ?_⟩, fun h => ⟨intType_of_mem h format, ?_⟩, ?_⟩
  · omega
  · have hread := get_putWord hcases
    rwa [intToWord_wordToInt] at hread
  · by_contra hnone
    rw [not_or] at hnone
    exact hne (intType_of_not_mem hnone.1 hnone.2)
  · rintro (h | ⟨rfl, h⟩) heq
    · exact absurd (heq.symm.trans (intType_of_mem h format)) (Nat.ne_of_lt (Nat.lt_succ_self _))
    · have hbit := intType_of_bit h
      omega
  · have hlarge : wordToInt w ≠ 0 ∧ wordToInt w ≠ 1 := by
      constructor <;> intro hn <;> rw [hn] at h <;> revert h <;> decide
    omega
  · rintro rfl h
    exact intType_of_bit h

theorem value_fieldFor (hv : v.Regular) : (fieldFor format v).value = v := by
  cases v with
  | null => rfl
  | int n => exact get_putWord (intType_cases n format hv)
  | real x =>
    have hbits : UInt64.ofNat (Serial.getNat (Serial.putWord x.bits 8)) = x.bits := by
      rw [Serial.getNat_putWord, Nat.mod_eq_of_lt (by norm_num; exact x.bits.toNat_lt)]
      exact UInt64.ofNat_toNat
    simp only [Value.Regular] at hv
    simp [fieldFor, Field.value, Serial.get, hbits, hv]
  | text b =>
    have hodd : ¬ (2 * b.length + 12 + 1) % 2 = 0 := by omega
    simp [fieldFor, Field.value, Serial.get, Serial.stringType, hodd]
  | blob b => simp [fieldFor, Field.value, Serial.get, Serial.stringType]

theorem type_fieldFor_lt (format : Int) (hv : Short v) : (fieldFor format v).type < 4294967310 := by
  cases v with
  | null => simp [fieldFor]
  | int n =>
    simp only [fieldFor, Serial.intType, Serial.magnitudeType]
    split_ifs <;> omega
  | real x => simp [fieldFor]
  | text b =>
    simp only [Short] at hv
    simp only [fieldFor, Serial.stringType, Bool.toNat_true]
    omega
  | blob b =>
    simp only [Short] at hv
    simp only [fieldFor, Serial.stringType, Bool.toNat_false]
    omega

theorem length_fieldFor (format : Int) (v : Value) :
    (fieldFor format v).bytes.length = Serial.typeLength (fieldFor format v).type := by
  cases v with
  | null => rfl
  | int n => simp [fieldFor]
  | real x => simp [fieldFor, Serial.typeLength, Serial.fixedLengths]
  | text b => simp [fieldFor, Serial.typeLength, Serial.stringType]; omega
  | blob b => simp [fieldFor, Serial.typeLength, Serial.stringType]

end Record

theorem Flags.kind_cases (f : Flags) :
    f.kind = .null ∧ f.null = true ∨
    f.kind = .integer ∧ f.null = false ∧ f.int = true ∨
    f.kind = .float ∧ f.null = false ∧ f.int = false ∧ f.real = true ∨
    f.kind = (if f.str then .text else .blob) ∧ f.null = false ∧ f.int = false ∧ f.real = false := by
  simp only [kind]
  cases f.null <;> cases f.int <;> cases f.real <;> simp

namespace Cell

/-- The value of a register: an integer before a double, that before a text. -/
def value (c : Cell) : Value :=
  match c.flags.kind with
  | .null => .null
  | .integer => .int c.int
  | .float => .real c.real
  | .text => .text c.bytes
  | .blob => .blob c.bytes

/-- Registers that hold a value, and no counted zeros. -/
structure Storable (c : Cell) : Prop where
  defined : c.flags.undefined = false
  counted : c.flags.zero = false
  number : c.flags.kind = .float → c.real.isNaN = false
  string : c.flags.kind = .text ∨ c.flags.kind = .blob →
    c.flags.textual = true ∧ c.bytes.length = c.size ∧ c.size ≤ 2147483647

theorem Storable.regular {c : Cell} (h : c.Storable) : c.value.Regular := by
  simp only [value]
  cases hk : c.flags.kind with
  | null => trivial
  | integer => exact fitsWord_wordToInt _
  | float => exact h.number hk
  | text => trivial
  | blob => trivial

end Cell

/-- A double and what may be written in its place: the same one, or a zero for a zero that is known. -/
def Double.Kept (known : Bool) (x y : Double) : Prop :=
  y = x ∨ known = true ∧ x.isZero = true ∧ y.isZero = true

/-- A value and what may be written in its place. -/
def Value.Kept (known : Bool) (v w : Value) : Prop :=
  w = v ∨ ∃ x y, v = .real x ∧ w = .real y ∧ x.Kept known y

theorem Number.kept_of_eq {a : Number} (ha : a.Plain) {x : Double} (h : (Number.real x).eq a = true) :
    x.Kept true a.toDouble := by
  obtain ⟨-, hkey⟩ := (Number.real_eq_iff ha x).mp h
  by_cases hzero : x.key = 0
  · refine .inr ⟨rfl, by simpa [Double.isZero] using (Double.key_eq_zero_iff x).mp hzero, ?_⟩
    cases a with
    | int n =>
      simp only [Plain] at ha
      subst ha
      decide
    | real y =>
      rw [hzero] at hkey
      simpa [toDouble, Double.isZero] using (Double.key_eq_zero_iff y).mp hkey.symm
  · cases a with
    | int n => simp_all [Plain, level]
    | real y => exact .inl (Double.eq_of_key_eq hkey hzero).symm

/-- What is read of a double of which a true fact may say something. -/
theorem Fact.Holds.kept {f : Fact} {c : Cell} (h : f.Holds c none) (hf : f.Plain) :
    c.real.Kept f.real?.isSome (f.real?.getD (.real c.real)).toDouble := by
  cases hr : f.real? with
  | none => exact .inl rfl
  | some a => exact Number.kept_of_eq (hf.real? hr) (h.real (by simp) a hr)

theorem Fact.Holds.of_parts {f : Fact} {c d : Cell} {last : Option Part} (h : f.Holds c last)
    (hflags : d.flags = c.flags) (hpayload : d.payload = c.payload) : f.Holds d last where
  flags g hg := (h.flags g hg).trans hflags.symm
  int hp n hn := (h.int hp n hn).trans (congrArg wordToInt hpayload.symm)
  real hp x hx := by
    have : d.real = c.real := congrArg Double.mk hpayload
    rw [this]
    exact h.real hp x hx

namespace Value

variable {known : Bool} {v w : Value} {format : Int}

theorem Kept.type (h : v.Kept known w) :
    (Record.fieldFor format w).type = (Record.fieldFor format v).type := by
  rcases h with rfl | ⟨x, y, rfl, rfl, _⟩ <;> rfl

theorem Kept.regular (h : v.Kept known w) (hv : v.Regular) : w.Regular := by
  rcases h with rfl | ⟨x, y, rfl, rfl, heq | ⟨_, _, hzero⟩⟩
  · exact hv
  · rw [heq]
    exact hv
  · simp only [Regular, Double.isNaN, Double.isZero, beq_iff_eq] at *
    rw [hzero]
    rfl

theorem Kept.short (h : v.Kept known w) (hv : Record.Short v) : Record.Short w := by
  rcases h with rfl | ⟨x, y, rfl, rfl, _⟩
  · exact hv
  · trivial

end Value

namespace Record

variable {format : Int}

theorem length_typesOf_le (format : Int) {values : List Value} (h : ∀ v ∈ values, Short v) :
    (typesOf (values.map (fieldFor format))).length ≤ 5 * values.length := by
  induction values with
  | nil => simp [typesOf]
  | cons v values ih =>
    have hsmall := type_fieldFor_lt format (h v List.mem_cons_self)
    have hlen : Varint.length (fieldFor format v).type ≤ 5 :=
      Varint.length_le (by omega) (by norm_num; omega)
    have := ih fun w hw => h w (List.mem_cons_of_mem v hw)
    rw [List.map_cons, typesOf_cons, List.length_append, Varint.length_encode (by omega),
      List.length_cons]
    omega

theorem type_fieldFor_le (format : Int) (v : Value) :
    (fieldFor format v).type ≤ 2 * (fieldFor format v).bytes.length + 13 := by
  cases v with
  | null => simp [fieldFor]
  | int n =>
    simp only [fieldFor, Serial.intType, Serial.magnitudeType]
    split_ifs <;> omega
  | real x => simp [fieldFor]
  | text b => simp [fieldFor, Serial.stringType]
  | blob b => simp [fieldFor, Serial.stringType]

theorem fits_fields {values : List Value}
    (hheader : header (values.map (fieldFor format)) ≤ Reader.headerLimit)
    (hsize : (encode (values.map (fieldFor format))).length ≤ 1000000000) :
    Fits (values.map (fieldFor format)) where
  whole f hf := by
    obtain ⟨v, hv, rfl⟩ := List.mem_map.mp hf
    have hcontents : (fieldFor format v).bytes.length ≤
        (contentsOf (values.map (fieldFor format))).length :=
      (List.sublist_flatten_of_mem (List.mem_map_of_mem hf)).length_le
    have htype := type_fieldFor_le format v
    rw [encode_eq, List.length_append] at hsize
    exact ⟨length_fieldFor format v, by omega⟩
  header := hheader
  size := by omega

theorem length_encode_fields (format : Int) {values : List Value} (h : ∀ v ∈ values, Short v)
    (hn : values.length ≤ 2147483647) :
    (encode (values.map (fieldFor format))).length =
      header (values.map (fieldFor format)) + (contentsOf (values.map (fieldFor format))).length := by
  have htypes := length_typesOf_le format h
  have hheader := headerLength_le (typesOf (values.map (fieldFor format))).length
  rw [encode_eq, List.length_append, List.length_append,
    Varint.length_encode (by rw [header]; omega)]
  congr 1
  exact headerLength_eq _

end Record

namespace Bank

/-- Everything that is known about the registers is true, and only doubles with `known` are known. -/
structure Trusts (b : Bank) (t : Sheet) (known : Nat → Bool) : Prop where
  keeps : b.Keeps t
  reach : b.reach ≤ b.cells.size
  holds : ∀ r < b.reach, (t.fact r).Holds (b.cellAt r) none
  real : ∀ r, (t.fact r).real?.isSome = true → known r = true

variable {b : Bank} {t : Sheet} {known : Nat → Bool} {r : Nat}

def formOf (f : Field) : SerialForm := ⟨f.type, f.bytes.length, Varint.length f.type⟩

theorem formOf_small {f : Field} (ht : f.type < 12)
    (hl : f.bytes.length = Serial.typeLength f.type) : formOf f = SerialForm.ofType f.type := by
  rw [formOf, hl, SerialForm.ofType, Varint.length, if_pos (by omega), Serial.typeLength,
    if_neg (by omega)]

theorem formOf_string (isText : Bool) (bytes : Bytes) :
    formOf ⟨Serial.stringType isText bytes.length, bytes⟩ =
      let t := Serial.stringType isText bytes.length
      ⟨t, bytes.length, if t ≤ 127 then 1 else Varint.length t⟩ := by
  rw [formOf]
  simp only [SerialForm.mk.injEq, true_and]
  split
  · rw [Varint.length, if_pos (by omega)]
  · rfl

end Bank

end QueryMachine
