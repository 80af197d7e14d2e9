import Mathlib
import QueryMachine.Proofs.Codec
import QueryMachine.Record.Reader

/-!
A record is read back field by field. However far its header has been read, reading on gives the types
and the places of the fields that were written.
-/

namespace QueryMachine

namespace Record

theorem headerLength_eq (n : Nat) : Varint.length (headerLength n) + n = headerLength n := by
  unfold headerLength
  split
  · rw [Varint.length, if_pos (by omega)]
    omega
  · have hk := Varint.length_pos n
    have hlt := Varint.lt_of_length_le (le_refl (Varint.length n))
    generalize hlen : Varint.length n = k at *
    simp only
    split
    · rename_i hlong
      have hmono := Varint.length_mono (show n + k ≤ n + k + 1 by omega)
      have hpow : k < 128 ^ k := Nat.lt_pow_self (by omega)
      have hle : Varint.length (n + k + 1) ≤ k + 1 := by
        apply Varint.length_le (by omega)
        rw [Nat.pow_succ]
        omega
      omega
    · have hmono := Varint.length_mono (show n ≤ n + k by omega)
      omega

theorem headerLength_le (n : Nat) : headerLength n ≤ 2 * n + 2 := by
  unfold headerLength
  split
  · omega
  · have : Varint.length n ≤ n := Varint.length_le (by omega) (Nat.lt_pow_self (by omega))
    simp only
    split <;> omega

def typesOf (fields : List Field) : Bytes := (fields.map fun f => Varint.encode f.type).flatten

def contentsOf (fields : List Field) : Bytes := (fields.map (·.bytes)).flatten

@[simp] theorem typesOf_append (xs ys : List Field) :
    typesOf (xs ++ ys) = typesOf xs ++ typesOf ys := by
  simp [typesOf]

@[simp] theorem typesOf_cons (f : Field) (fields : List Field) :
    typesOf (f :: fields) = Varint.encode f.type ++ typesOf fields := by
  simp [typesOf]

@[simp] theorem contentsOf_append (xs ys : List Field) :
    contentsOf (xs ++ ys) = contentsOf xs ++ contentsOf ys := by
  simp [contentsOf]

@[simp] theorem contentsOf_cons (f : Field) (fields : List Field) :
    contentsOf (f :: fields) = f.bytes ++ contentsOf fields := by
  simp [contentsOf]

def header (fields : List Field) : Nat := headerLength (typesOf fields).length

def typeAt (fields : List Field) (k : Nat) : Nat :=
  Varint.length (header fields) + (typesOf (fields.take k)).length

def contentAt (fields : List Field) (k : Nat) : Nat :=
  header fields + (contentsOf (fields.take k)).length

theorem encode_eq (fields : List Field) :
    encode fields = Varint.encode (header fields) ++ typesOf fields ++ contentsOf fields := rfl

theorem typeAt_length (fields : List Field) : typeAt fields fields.length = header fields := by
  rw [typeAt, List.take_length]
  exact headerLength_eq _

end Record

/-- A field with all of its content, small enough to be read. -/
structure Field.Whole (f : Field) : Prop where
  length : f.bytes.length = Serial.typeLength f.type
  small : f.type < 4294967296

structure Record.Fits (fields : List Field) : Prop where
  whole : ∀ f ∈ fields, f.Whole
  header : header fields ≤ Reader.headerLimit
  size : (encode fields).length < 4294967296

namespace Record

variable {fields : List Field}

theorem Fits.length_header (h : Fits fields) :
    (Varint.encode (Record.header fields)).length = Varint.length (Record.header fields) := by
  have := h.header
  exact Varint.length_encode (by simp only [Reader.headerLimit] at this; omega)

theorem Fits.length_encode (h : Fits fields) :
    (encode fields).length = contentAt fields fields.length := by
  rw [encode_eq, contentAt, List.take_length, List.length_append, List.length_append,
    h.length_header]
  congr 1
  exact headerLength_eq _

theorem split_at {k : Nat} (hk : k < fields.length) :
    fields = fields.take k ++ fields[k] :: fields.drop (k + 1) := by
  rw [List.getElem_cons_drop, List.take_append_drop]

theorem typesOf_split {k : Nat} (hk : k < fields.length) :
    typesOf fields = typesOf (fields.take k) ++
      (Varint.encode fields[k].type ++ typesOf (fields.drop (k + 1))) := by
  conv_lhs => rw [split_at hk, typesOf_append, typesOf_cons]

theorem contentsOf_split {k : Nat} (hk : k < fields.length) :
    contentsOf fields = contentsOf (fields.take k) ++
      (fields[k].bytes ++ contentsOf (fields.drop (k + 1))) := by
  conv_lhs => rw [split_at hk, contentsOf_append, contentsOf_cons]

theorem typeAt_succ (h : Fits fields) {k : Nat} (hk : k < fields.length) :
    typeAt fields (k + 1) = typeAt fields k + Varint.length fields[k].type := by
  have hs := (h.whole _ (List.getElem_mem hk)).small
  have hl := Varint.length_encode (show fields[k].type < _ by omega)
  rw [typeAt, typeAt, List.take_add_one, List.getElem?_eq_getElem hk, Option.toList_some,
    typesOf_append, typesOf_cons, List.length_append, List.length_append, hl]
  simp only [typesOf, List.map_nil, List.flatten_nil, List.length_nil]
  omega

theorem contentAt_succ (h : Fits fields) {k : Nat} (hk : k < fields.length) :
    contentAt fields (k + 1) = contentAt fields k + Serial.typeLength fields[k].type := by
  rw [contentAt, contentAt, List.take_add_one, List.getElem?_eq_getElem hk, Option.toList_some,
    contentsOf_append, contentsOf_cons, List.length_append, List.length_append,
    (h.whole _ (List.getElem_mem hk)).length]
  simp only [contentsOf, List.map_nil, List.flatten_nil, List.length_nil]
  omega

theorem typeAt_lt (h : Fits fields) {k : Nat} (hk : k < fields.length) :
    typeAt fields k < header fields := by
  have hs := (h.whole _ (List.getElem_mem hk)).small
  have hl := Varint.length_encode (show fields[k].type < _ by omega)
  have hp := Varint.length_pos fields[k].type
  have ht := congrArg List.length (typesOf_split hk)
  rw [List.length_append, List.length_append] at ht
  rw [← typeAt_length, typeAt, typeAt, List.take_length]
  omega

theorem contentAt_le (fields : List Field) (k : Nat) :
    contentAt fields k ≤ contentAt fields fields.length := by
  have := congrArg (fun xs => (contentsOf xs).length) (List.take_append_drop k fields)
  simp only [contentsOf_append, List.length_append] at this
  rw [contentAt, contentAt, List.take_length]
  omega

theorem decodeAt_typeAt (h : Fits fields) {k : Nat} (hk : k < fields.length) :
    Varint.decodeAt (encode fields) (typeAt fields k) =
      (fields[k].type, typeAt fields (k + 1)) := by
  have hs := (h.whole _ (List.getElem_mem hk)).small
  have hsplit : encode fields = (Varint.encode (header fields) ++ typesOf (fields.take k)) ++
      (Varint.encode fields[k].type ++ (typesOf (fields.drop (k + 1)) ++ contentsOf fields)) := by
    rw [encode_eq, typesOf_split hk]
    simp only [List.append_assoc]
  have hplace : typeAt fields k =
      (Varint.encode (header fields) ++ typesOf (fields.take k)).length := by
    rw [List.length_append, h.length_header, typeAt]
  rw [hsplit, hplace, Varint.decodeAt_encode hs, ← hplace, typeAt_succ h hk]

theorem take_contentAt (h : Fits fields) {k : Nat} (hk : k < fields.length) :
    ((encode fields).drop (contentAt fields k)).take (Serial.typeLength fields[k].type) =
      fields[k].bytes := by
  have hsplit : encode fields =
      (Varint.encode (header fields) ++ typesOf fields ++ contentsOf (fields.take k)) ++
        (fields[k].bytes ++ contentsOf (fields.drop (k + 1))) := by
    rw [encode_eq, contentsOf_split hk]
    simp only [List.append_assoc]
  have hplace : contentAt fields k =
      (Varint.encode (header fields) ++ typesOf fields ++ contentsOf (fields.take k)).length := by
    rw [List.length_append, List.length_append, h.length_header, contentAt]
    congr 1
    exact (headerLength_eq _).symm
  rw [hsplit, hplace, List.drop_left, ← (h.whole _ (List.getElem_mem hk)).length, List.take_left]

theorem length_le_typesOf {xs : List Field} (h : ∀ f ∈ xs, f.Whole) :
    xs.length ≤ (typesOf xs).length := by
  induction xs with
  | nil => exact Nat.zero_le _
  | cons f xs ih =>
    have hs := (h f List.mem_cons_self).small
    have hl := Varint.length_encode (show f.type < _ by omega)
    have hp := Varint.length_pos f.type
    have := ih fun g hg => h g (List.mem_cons_of_mem f hg)
    rw [typesOf_cons, List.length_append, List.length_cons]
    omega

theorem remaining_le (h : Fits fields) (k : Nat) :
    fields.length - k ≤ header fields - typeAt fields k := by
  have hrest := length_le_typesOf fun f hf => h.whole f (List.mem_of_mem_drop (i := k) hf)
  have hall := congrArg (fun xs => (typesOf xs).length) (List.take_append_drop k fields)
  simp only [typesOf_append, List.length_append] at hall
  rw [List.length_drop] at hrest
  rw [← typeAt_length, typeAt, typeAt, List.take_length]
  omega

end Record

namespace Reader

open Record

/-- The first `k` types of the record of `fields` have been read. -/
structure At (r : Reader) (fields : List Field) (k : Nat) : Prop where
  record : r.record = encode fields
  size : r.size = (encode fields).length
  header : r.header = Record.header fields
  types : r.types = (fields.take k).map (·.type)
  offsets : r.offsets = (List.range (k + 1)).map (contentAt fields)
  place : r.place = typeAt fields k
  le : k ≤ fields.length

variable {r : Reader} {fields : List Field} {k : Nat}

theorem At.offset (h : r.At fields k) {j : Nat} (hj : j ≤ k) : r.offset j = contentAt fields j := by
  rw [Reader.offset, h.offsets, List.getD_eq_getElem?_getD, List.getElem?_map,
    List.getElem?_range (by omega)]
  rfl

theorem At.length_types (h : r.At fields k) : r.types.length = k := by
  rw [h.types, List.length_map, List.length_take]
  have := h.le
  omega

theorem start_at (h : Fits fields) (near : Nat) :
    (start (encode fields) (encode fields).length near).At fields 0 := by
  have hlimit : Record.header fields < 4294967296 := by
    have := h.header
    simp only [headerLimit] at this
    omega
  have hread : Varint.decodeAt (encode fields) 0 =
      (Record.header fields, Varint.length (Record.header fields)) := by
    have := Varint.decodeAt_encode hlimit [] (typesOf fields ++ contentsOf fields)
    rw [encode_eq, List.append_assoc]
    simpa using this
  constructor
  · rfl
  · rfl
  · simp only [start, hread]
  · rfl
  · simp [start, hread, contentAt, contentsOf]
  · simp [start, hread, typeAt, typesOf]
  · exact Nat.zero_le _

theorem At.sound (h : r.At fields k) (hf : Fits fields) : r.sound = true := by
  have hle : Record.header fields ≤ (encode fields).length := by
    rw [hf.length_encode, contentAt]
    omega
  simp only [Reader.sound, h.header, h.size, Bool.and_eq_true, decide_eq_true_eq]
  exact ⟨hf.header, hle⟩

theorem At.step (h : r.At fields k) (hf : Fits fields) (hk : k < fields.length) (i fuel : Nat) :
    ∃ r' : Reader, r'.At fields (k + 1) ∧
      parse i (fuel + 1) r =
        if k + 1 ≤ i ∧ k + 1 < fields.length then parse i fuel r' else r' := by
  have hread := decodeAt_typeAt hf hk
  have hnext : contentAt fields k + Serial.typeLength fields[k].type = contentAt fields (k + 1) :=
    (contentAt_succ hf hk).symm
  have hsmall : ¬ 4294967296 ≤ contentAt fields (k + 1) := by
    have := contentAt_le fields (k + 1)
    have := hf.size
    rw [hf.length_encode] at this
    omega
  refine ⟨{ r with
    types := r.types ++ [fields[k].type]
    offsets := r.offsets ++ [contentAt fields (k + 1)]
    place := typeAt fields (k + 1) }, ⟨h.record, h.size, h.header, ?_, ?_, rfl, hk⟩, ?_⟩
  · rw [h.types, List.take_add_one, List.getElem?_eq_getElem hk, Option.toList_some,
      List.map_append, List.map_singleton]
  · rw [h.offsets, List.range_succ (n := k + 1), List.map_append, List.map_singleton]
  · have hgo : typeAt fields (k + 1) < Record.header fields ↔ k + 1 < fields.length := by
      constructor
      · intro hlt
        by_contra hge
        rw [show k + 1 = fields.length by omega, typeAt_length] at hlt
        omega
      · exact fun hlt => typeAt_lt hf hlt
    rw [parse, h.record, h.place, hread]
    simp only [h.length_types, h.offset le_rfl, hnext, if_neg hsmall, List.length_append,
      List.length_singleton, h.header, hgo, Bool.and_eq_true, decide_eq_true_eq]

theorem At.parse (h : r.At fields k) (hf : Fits fields) (hk : k < fields.length) {i fuel : Nat}
    (hfuel : fields.length - k ≤ fuel) :
    ∃ k', (Reader.parse i fuel r).At fields k' ∧ (i < k' ∨ k' = fields.length) := by
  induction fuel generalizing r k with
  | zero => omega
  | succ fuel ih =>
    obtain ⟨r', h', hparse⟩ := h.step hf hk i fuel
    rw [hparse]
    split
    · rename_i hgo
      exact ih h' hgo.2 (by omega)
    · exact ⟨k + 1, h', by omega⟩

theorem At.consistent (h : r.At fields k) (hf : Fits fields) : r.consistent = true := by
  have hle := contentAt_le fields k
  simp only [Reader.consistent, h.length_types, h.offset le_rfl, h.size, h.header, h.place,
    hf.length_encode, Bool.and_eq_true, Bool.or_eq_true, decide_eq_true_eq, beq_iff_eq]
  refine ⟨hle, ?_⟩
  rcases Nat.lt_or_ge k fields.length with hk | hk
  · exact .inl (typeAt_lt hf hk)
  · have : k = fields.length := Nat.le_antisymm h.le hk
    subst this
    exact .inr ⟨typeAt_length fields, rfl⟩

theorem At.advance (h : r.At fields k) (hf : Fits fields) (i : Nat) :
    ∃ r' k', r.advance i = (true, r') ∧ r'.At fields k' ∧ (i < k' ∨ k' = fields.length) := by
  rw [Reader.advance, h.length_types, h.header, h.place]
  rcases Nat.lt_or_ge k fields.length with hk | hk
  · by_cases hi : i < k
    · exact ⟨r, k, by simp [hi], h, .inl hi⟩
    · have hread : ¬ Record.header fields ≤ typeAt fields k := by
        have := typeAt_lt hf hk
        omega
      obtain ⟨k', hp, hend⟩ := h.parse hf hk (i := i) (remaining_le hf k)
      refine ⟨_, k', ?_, hp, hend⟩
      simp only [hi, hread, decide_false, Bool.or_false, Bool.false_eq_true, if_false,
        hp.consistent hf]
  · have hall : k = fields.length := Nat.le_antisymm h.le hk
    refine ⟨r, k, ?_, h, .inr hall⟩
    rw [hall, typeAt_length]
    simp

/-- What has been read of column `i` is the field that was written; past the last one there is none. -/
theorem At.field? (h : r.At fields k) (hf : Fits fields) {i : Nat} (hi : i < k ∨ k = fields.length) :
    r.field? i = fields[i]? := by
  rcases Nat.lt_or_ge i fields.length with hlt | hge
  · have hik : i < k := by omega
    have htype : r.types[i]? = some fields[i].type := by
      rw [h.types, List.getElem?_map, List.getElem?_take_of_lt hik, List.getElem?_eq_getElem hlt]
      rfl
    rw [Reader.field?, htype, List.getElem?_eq_getElem hlt, h.offset (Nat.le_of_lt hik), h.record]
    simp only [take_contentAt hf hlt]
  · have htype : r.types[i]? = none := by
      rw [List.getElem?_eq_none_iff, h.length_types]
      have := h.le
      omega
    rw [Reader.field?, htype, List.getElem?_eq_none hge]

end Reader

end QueryMachine
