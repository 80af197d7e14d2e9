import Mathlib
import QueryMachine.Proofs.Lockstep
import QueryMachine.Proofs.Relations
import QueryMachine.Proofs.Seeking

/-!
Casts. The direct rule forces every value to the kind of an affinity. The tracked rule, which stands for it
unless another family is told otherwise, refuses blobs, texts that should be numbers and doubles that are too
large for an integer, and does the same for everything else.
-/

namespace QueryMachine

theorem Decimal.fitsWord_readInt (bytes : Bytes) : fitsWord (readInt bytes).value = true := by
  simp only [readInt]
  rw [fitsWord_iff, show maxWord = 9223372036854775807 from rfl, show minWord = -9223372036854775808 from rfl]
  split_ifs <;> omega

theorem Double.Kept.mono {p q : Bool} {x y : Double} (h : x.Kept p y) (hpq : p = true → q = true) : x.Kept q y :=
  h.imp_right fun ⟨hp, hzero⟩ => ⟨hpq hp, hzero⟩

/-- A law under which no double may be known if `p`. -/
def Fact.Realless (P : Fact → Cell → Prop) (p : Prop) (f : Fact) (c : Cell) : Prop := P f c ∧ (p → f.real? = none)

theorem Fact.Law.realless {P : Fact → Cell → Prop} (hP : Law P) (p : Prop) : Law (Realless P p) := by
  have h := hP.known (Q := fun _ d => p → d = false) fun _ => rfl
  simp only [Option.isSome_eq_false_iff, Option.isNone_iff_eq_none] at h
  exact h

/-- The marks of a text beside those of a blob. -/
def Flags.orText (f : Flags) : Flags := { f with str := f.textual }

/-- No kind is left but that of a text. -/
def Flags.justText (f : Flags) : Flags := { f with int := false, real := false, blob := false, zero := false }

/-- The marks of a value that the tracked rule has forced to the kind of an affinity. -/
def Flags.Has (f : Flags) : Affinity → Prop
  | .none => False
  | .text => f.str = true ∧ f.justText = f ∧ f.null = false
  | .numeric => f.numeric = true ∧ f.str = false ∧ f.blob = false ∧ f.zero = false ∧ f.null = false
  | .integer => f.int = true ∧ f.retype .onlyInt = f
  | .real => f.real = true ∧ f.retype .onlyReal = f

theorem Flags.Has.zero {f : Flags} {aff : Affinity} (h : f.Has aff) : f.zero = false := by
  cases aff with
  | none => exact h.elim
  | text =>
    rw [← h.2.1]
    rfl
  | numeric => exact h.2.2.2.1
  | integer =>
    rw [← h.2]
    rfl
  | real =>
    rw [← h.2]
    rfl

theorem Flags.Has.null {f : Flags} {aff : Affinity} (h : f.Has aff) : f.null = false := by
  cases aff with
  | none => exact h.elim
  | text => exact h.2.2
  | numeric => exact h.2.2.2.2
  | integer =>
    rw [← h.2]
    rfl
  | real =>
    rw [← h.2]
    rfl

theorem Flags.orText_of_blob {f : Flags} (h : f.blob = false) : f.orText = f :=
  congrArg (fun s => { f with str := s }) (show f.textual = f.str by rw [textual, h, Bool.or_false])

namespace Cell

variable {c d : Cell}

/-- The casts that the tracked rule refuses. -/
def resists (aff : Affinity) (c : Cell) : Bool :=
  !c.flags.null && match aff with
    | .none => true
    | .numeric => !c.flags.numeric
    | .integer => !c.flags.int && c.flags.real && !(c.real.trunc?.any fitsWord)
    | .real | .text => false

/-- The string and where it lies are the same. -/
structure KeepsString (c d : Cell) : Prop where
  data : d.data = c.data
  size : d.size = c.size
  own : d.own = c.own
  term : d.flags.term = c.flags.term

theorem KeepsString.overwrites (h : c.KeepsString d) (old : Cell) : d.overwrites old = c.overwrites old := by
  rw [Cell.overwrites, Cell.overwrites, isOwner, isOwner, h.data, h.own, h.term]

theorem KeepsString.seeing (h : c.KeepsString d) (e : Cell) : d.seeing e = c.seeing e := by
  rw [Cell.seeing, Cell.seeing, written, written, h.data, h.size, h.term]

/-- A blob counts as a text, and a number is written as one. -/
def spelled (n : Nat) (c : Cell) : Cell := (c.withFlags c.flags.orText).applyAffinity n .text

theorem spelled_eq (n : Nat) (c : Cell) : c.spelled n =
    if !c.flags.textual && c.flags.numeric then (c.withFlags c.flags.orText).stringify n true
    else c.withFlags c.flags.orText := rfl

theorem cast_of_null {n : Nat} (hnull : c.flags.null = true) (aff : Affinity) : c.cast n aff = c := by
  rw [cast.eq_def, hnull]
  rfl

theorem cast_text {n : Nat} (hnull : c.flags.null = false) :
    c.cast n .text = (c.spelled n).withFlags (c.spelled n).flags.justText := by
  rw [cast, hnull]
  rfl

/-- What the tracked rule leaves of a register: what the direct one does, but for a zero that is known. -/
def Forced (c : Cell) (n : Nat) (aff : Affinity) (known : Bool) (d : Cell) : Prop :=
  d = c.cast n aff ∨
    aff = .real ∧ c.flags.real = true ∧ ∃ x, c.real.Kept known x ∧ d = (c.cast n aff).withPayload x.bits

theorem Held.valued (h : c.Held) (hnull : c.flags.null = false) : c.flags.numeric = true ∨ c.flags.textual = true := by
  have hkind := h.kind
  rw [Flags.numeric, Flags.textual]
  revert hkind hnull
  generalize c.flags.null = n, c.flags.int = i, c.flags.real = x, c.flags.str = s, c.flags.blob = b
  revert n i x s b
  decide

theorem numerify_of_numeric (h : c.flags.numeric = true) :
    c.numerify = c.withFlags { c.flags with str := false, blob := false } := by
  rw [numerify, show (c.flags.int || c.flags.real) = true from h]
  rfl

theorem wholeValue_of_fits (h : (!c.flags.int && c.flags.real && !(c.real.trunc?.any fitsWord)) = false) :
    ∃ n, c.wholeValue = .ok n ∧ fitsWord n = true ∧ n = c.intValue := by
  rw [wholeValue, intValue]
  cases hint : c.flags.int with
  | true => exact ⟨c.int, rfl, fitsWord_wordToInt _, rfl⟩
  | false =>
    cases hreal : c.flags.real with
    | true =>
      rw [hint, hreal, Bool.not_false, Bool.true_and, Bool.true_and, Bool.not_eq_false', Option.any_eq_true] at h
      obtain ⟨n, hn, hfits⟩ := h
      cases hfinite : c.real.isFinite with
      | true =>
        rw [Double.trunc?_eq hfinite] at hn
        cases hn
        exact ⟨_, rfl, hfits, (Double.toInt64Clamped_eq hfinite hfits).symm⟩
      | false =>
        rw [Double.trunc?, hfinite] at hn
        cases hn
    | false =>
      cases htext : c.flags.textual with
      | true => exact ⟨c.readInt.value, rfl, Decimal.fitsWord_readInt _, rfl⟩
      | false => exact ⟨0, rfl, rfl, rfl⟩

theorem cast_of_has {aff : Affinity} (hnull : c.flags.null = false) (h : c.flags.Has aff) (n : Nat) : c.cast n aff = c := by
  cases aff with
  | none => exact h.elim
  | text =>
    obtain ⟨hstr, hjust, -⟩ := h
    have hblob : c.flags.blob = false := by
      rw [← hjust]
      rfl
    have hspelled : c.spelled n = c := by
      rw [spelled_eq, Flags.orText_of_blob hblob, Flags.textual, hstr]
      rfl
    rw [cast_text hnull, hspelled, hjust]
    rfl
  | numeric =>
    have hflags : { c.flags with str := false, blob := false } = c.flags :=
      congrArg₂ (fun s t => { c.flags with str := s, blob := t }) h.2.1.symm h.2.2.1.symm
    rw [cast, hnull, if_neg Bool.false_ne_true, numerify_of_numeric h.1, hflags]
    rfl
  | integer =>
    rw [cast, hnull, if_neg Bool.false_ne_true, integerify, intValue, h.1, if_pos rfl, Content.int, intToWord_wordToInt, h.2]
  | real =>
    rw [cast, hnull, if_neg Bool.false_ne_true, realify, realValue, h.1, if_pos rfl, h.2]
    rfl

theorem str_spelled (h : c.flags.numeric = true ∨ c.flags.textual = true) (n : Nat) : (c.spelled n).flags.str = true := by
  rw [spelled_eq]
  cases htext : c.flags.textual with
  | true => exact htext
  | false =>
    rw [h.resolve_right (by simp [htext])]
    exact (flags_stringify _ _).2.1

theorem null_spelled (n : Nat) (c : Cell) : (c.spelled n).flags.null = c.flags.null := by
  rw [spelled_eq]
  split
  · exact (flags_stringify _ _).1
  · rfl

theorem has_cast {aff : Affinity} (hc : c.Held) (hnull : c.flags.null = false) (hzero : c.flags.zero = false)
    (hres : c.resists aff = false) (n : Nat) : (c.cast n aff).flags.Has aff := by
  cases aff with
  | none =>
    rw [resists, hnull] at hres
    cases hres
  | text =>
    rw [cast_text hnull]
    exact ⟨str_spelled (hc.valued hnull) n, rfl, (null_spelled n c).trans hnull⟩
  | numeric =>
    have hnumeric : c.flags.numeric = true := by
      rw [resists, hnull] at hres
      simpa using hres
    rw [cast, hnull, if_neg Bool.false_ne_true, numerify_of_numeric hnumeric]
    exact ⟨hnumeric, rfl, rfl, hzero, hnull⟩
  | integer =>
    rw [cast, hnull, if_neg Bool.false_ne_true, integerify]
    exact ⟨rfl, by simp [Flags.retype, Flags.union, Flags.storage]⟩
  | real =>
    rw [cast, hnull, if_neg Bool.false_ne_true, realify]
    exact ⟨rfl, by simp [Flags.retype, Flags.union, Flags.storage]⟩

theorem keepsString_asInt (c : Cell) (n : Int) : c.KeepsString (c.asInt n) := ⟨rfl, rfl, rfl, Bool.or_false _⟩

theorem keepsString_asDouble (c : Cell) (x : Double) : c.KeepsString (c.asDouble x) := ⟨rfl, rfl, rfl, Bool.or_false _⟩

/-- A register with a content that a cast is for: no value, a number, a text or a blob, which may have counted zeros. -/
structure Castable (c : Cell) : Prop extends c.Held where
  zeros : c.flags.zero = true → c.flags.blob = true
  string : c.flags.textual = true → c.size ≠ 0 → c.data.isSome = true

theorem isSome_data_grow (n k : Nat) (preserve : Bool) (c : Cell) : (c.grow n k preserve).data.isSome = true := by
  rw [grow]
  cases c.own with
  | none => rfl
  | some own =>
    dsimp only
    split <;> rfl

theorem flags_expandBlob_of_zero (hzero : c.flags.zero = true) (n : Nat) : (c.expandBlob n).flags =
    { c.flags with dyn := false, ephem := false, static := false, zero := false, term := false } := by
  rw [Cell.expandBlob, hzero, if_pos rfl]
  dsimp only
  rw [flags_grow]

theorem Castable.expandBlob (h : c.Castable) (n : Nat) : (c.expandBlob n).Castable := by
  cases hzero : c.flags.zero with
  | true =>
    have hflags := flags_expandBlob_of_zero hzero n
    have hdata : (c.expandBlob n).data.isSome = true := by
      rw [Cell.expandBlob, hzero, if_pos rfl]
      exact Option.isSome_map.trans (isSome_data_grow _ _ _ _)
    refine ⟨⟨?_, ?_⟩, ?_, fun _ _ => hdata⟩
    · rw [hflags]
      exact h.kind
    · rw [hflags]
      exact h.inside
    · rw [hflags]
      exact fun hcounted => Bool.noConfusion hcounted
  | false =>
    rw [Cell.expandBlob, hzero, if_neg Bool.false_ne_true]
    exact h

/-- A cell with a value and without anything that is not one. -/
structure Plainly (c : Cell) : Prop where
  inside : c.flags.undefined = false ∧ c.flags.rowSet = false ∧ c.flags.frame = false ∧ c.flags.agg = false
  value : c.flags.null = false
  counted : c.flags.zero = false
  string : c.flags.textual = true → c.size ≠ 0 → c.data.isSome = true

theorem Plainly.view_eq (h : c.Plainly) : c.view =
    .parts (if c.flags.str then some c.bytes else none) (if c.flags.blob then some c.bytes else none) none
      (if c.flags.int then some c.int else none) (if c.flags.real then some c.real else none) := by
  obtain ⟨⟨hundefined, hrow, hframe, hagg⟩, hnull, hzero, hstring⟩ := h
  have hthere : (c.flags.textual && c.size != 0 && c.data.isNone) = false := by
    cases htext : c.flags.textual with
    | false => rfl
    | true =>
      by_cases hsize : c.size = 0
      · simp [hsize]
      · simpa using fun _ => hstring htext hsize
  simp [Content.view, hundefined, hrow, hframe, hagg, hnull, hzero, hthere]

theorem plainly_retype {kind : Flags} (hagg : c.flags.agg = false)
    (hkind : kind = .onlyInt ∨ kind = .onlyReal ∨ kind = .onlyBlob ∧ (c.size ≠ 0 → c.data.isSome = true)) :
    (c.withFlags (c.flags.retype kind)).Plainly := by
  obtain rfl | rfl | ⟨rfl, hstring⟩ := hkind
  · exact ⟨⟨rfl, rfl, rfl, (Bool.or_false _).trans hagg⟩, rfl, rfl, nofun⟩
  · exact ⟨⟨rfl, rfl, rfl, (Bool.or_false _).trans hagg⟩, rfl, rfl, nofun⟩
  · exact ⟨⟨rfl, rfl, rfl, (Bool.or_false _).trans hagg⟩, rfl, rfl,
      fun _ => hstring⟩

end Cell

/-- What is seen of a value that has been forced to the kind of an affinity. -/
def View.Suits : View → Affinity → Prop
  | .parts none (some _) none none none, .none => True
  | .parts (some _) none none none none, .text => True
  | .parts none none none (some _) none, .numeric => True
  | .parts none none none none (some _), .numeric => True
  | .parts none none none (some n) none, .integer => fitsWord n = true
  | .parts none none none none (some _), .real => True
  | _, _ => False

namespace Cell

variable {c : Cell}

theorem Plainly.stringify (h : c.Plainly) (n : Nat) : (c.stringify n true).Plainly := by
  obtain ⟨own, text, -, -, hdata, -⟩ := stringify_owner n c
  refine ⟨?_, ?_, (flags_stringify n c).2.2.2 h.counted, fun _ _ => by rw [hdata]; rfl⟩
  · simp only [Cell.stringify, clearAndResize]
    split
    · rw [flags_grow]
      exact h.inside
    · exact ⟨rfl, rfl, rfl, rfl⟩
  · rw [(flags_stringify n c).1]
    exact h.value

theorem Plainly.spelled (h : c.Plainly) (n : Nat) : (c.spelled n).Plainly := by
  have hor : (c.withFlags c.flags.orText).Plainly := by
    refine ⟨h.inside, h.value, h.counted, fun htext => h.string ?_⟩
    simpa [withFlags, Flags.orText, Flags.textual, or_assoc] using htext
  rw [spelled_eq]
  split
  · exact hor.stringify n
  · exact hor

theorem Plainly.justText (h : c.Plainly) (hstr : c.flags.str = true) :
    (c.withFlags c.flags.justText).view = .parts (some c.bytes) none none none none := by
  have htext : (c.withFlags c.flags.justText).Plainly :=
    ⟨h.inside, h.value, rfl, fun _ => h.string (by rw [Flags.textual, hstr]; rfl)⟩
  rw [htext.view_eq]
  show View.parts (if c.flags.str then some c.bytes else none) none none none none = _
  rw [hstr]
  rfl

theorem view_asDouble (hagg : c.flags.agg = false) (x : Double) :
    (c.asDouble x).view = .parts none none none none (some x) :=
  (plainly_retype (c := c.withPayload x.bits) hagg (.inr (.inl rfl))).view_eq

theorem view_asBlob (hagg : c.flags.agg = false) (hstring : c.size ≠ 0 → c.data.isSome = true) :
    (c.withFlags (c.flags.retype .onlyBlob)).view = .parts none (some c.bytes) none none none :=
  (plainly_retype hagg (.inr (.inr ⟨rfl, hstring⟩))).view_eq

theorem view_numerify (h : c.Castable) (hnull : c.flags.null = false) (hzero : c.flags.zero = false) :
    (∃ n, c.numerify.view = .parts none none none (some n) none) ∨
      ∃ x, c.numerify.view = .parts none none none none (some x) := by
  cases hnumeric : c.flags.numeric with
  | true =>
    have hplainly : (c.withFlags { c.flags with str := false, blob := false }).Plainly :=
      ⟨h.inside, hnull, hzero, nofun⟩
    rw [numerify_of_numeric hnumeric, hplainly.view_eq]
    cases hreal : c.flags.real with
    | true =>
      refine .inr ⟨c.real, ?_⟩
      show View.parts none none none (if c.flags.int then some c.int else none) (if c.flags.real then some c.real else none) = _
      rw [h.double hreal, hreal]
      rfl
    | false =>
      refine .inl ⟨c.int, ?_⟩
      show View.parts none none none (if c.flags.int then some c.int else none) (if c.flags.real then some c.real else none) = _
      rw [Flags.numeric, hreal, Bool.or_false] at hnumeric
      rw [hnumeric, hreal]
      rfl
  | false =>
    have hagg {x : Double} : (c.asDouble x).flags.agg = false := (Bool.or_false _).trans h.agg
    have hnone : (c.flags.int || c.flags.real || c.flags.null) = false := by
      rw [show (c.flags.int || c.flags.real) = false from hnumeric, hnull]
      rfl
    rw [numerify, hnone, if_neg Bool.false_ne_true]
    dsimp only
    split
    · exact .inl ⟨_, view_asInt h.agg (Decimal.fitsWord_readInt _)⟩
    · rw [integerAffinity_eq, wholeOrSelf]
      cases hwhole : c.realify.real.whole? with
      | none => exact .inr ⟨c.realValue, view_asDouble h.agg _⟩
      | some n =>
        obtain ⟨-, -, hlow, hhigh⟩ := Double.whole?_eq_some.mp hwhole
        exact .inl ⟨n, view_asInt hagg (Double.fitsWord_of_inside hlow hhigh)⟩

theorem view_cast_none (h : c.Castable) (hnull : c.flags.null = false) (hzero : c.flags.zero = false) (n : Nat) :
    ∃ bytes, (c.cast n .none).view = .parts none (some bytes) none none none := by
  have hplainly : c.Plainly := ⟨h.inside, hnull, hzero, h.string⟩
  rw [cast, hnull, if_neg Bool.false_ne_true]
  cases hblob : c.flags.blob with
  | true =>
    have hstring := h.string (by rw [Flags.textual, hblob, Bool.or_true])
    rw [if_pos rfl, hzero]
    exact ⟨_, view_asBlob h.agg hstring⟩
  | false =>
    rw [if_neg Bool.false_ne_true]
    cases hstr : c.flags.str with
    | true =>
      have hself : c.applyAffinity n .text = c := by
        rw [applyAffinity, hstr]
        rfl
      rw [hself]
      exact ⟨_, view_asBlob h.agg (h.string (by rw [Flags.textual, hstr]; rfl))⟩
    | false =>
      have hnumeric : c.flags.numeric = true :=
        (h.valued hnull).resolve_right (by rw [Flags.textual, hstr, hblob]; exact Bool.false_ne_true)
      have hself : c.applyAffinity n .text = c.stringify n true := by
        rw [applyAffinity, hstr, hnumeric]
        rfl
      have htext := hplainly.stringify n
      rw [hself]
      exact ⟨_, view_asBlob htext.inside.2.2.2 (htext.string (by rw [Flags.textual, (flags_stringify n c).2.1]; rfl))⟩

theorem Castable.view_cast (h : c.Castable) (hnull : c.flags.null = false) (hzero : c.flags.zero = false)
    (n : Nat) (aff : Affinity) : (c.cast n aff).view.Suits aff := by
  have hplainly : c.Plainly := ⟨h.inside, hnull, hzero, h.string⟩
  cases aff with
  | none =>
    obtain ⟨bytes, hview⟩ := view_cast_none h hnull hzero n
    rw [hview]
    trivial
  | text =>
    rw [cast_text hnull, (hplainly.spelled n).justText (str_spelled (h.valued hnull) n)]
    trivial
  | numeric =>
    rw [cast, hnull, if_neg Bool.false_ne_true]
    obtain ⟨m, hview⟩ | ⟨x, hview⟩ := view_numerify h hnull hzero <;> rw [hview] <;> trivial
  | integer =>
    rw [cast, hnull, if_neg Bool.false_ne_true]
    have hview := (plainly_retype (c := c.withPayload (intToWord c.intValue)) h.agg (.inl rfl)).view_eq
    show (c.asInt c.intValue).view.Suits .integer
    rw [show (c.asInt c.intValue).view = _ from hview]
    exact fitsWord_wordToInt _
  | real =>
    rw [cast, hnull, if_neg Bool.false_ne_true]
    show (c.asDouble c.realValue).view.Suits .real
    rw [view_asDouble h.agg]
    trivial

theorem keepsString_cast {aff : Affinity} (htext : c.flags.textual = true) (hnull : c.flags.null = false)
    (hres : c.resists aff = false) (n : Nat) : c.KeepsString (c.cast n aff) := by
  cases aff with
  | none =>
    rw [resists, hnull] at hres
    cases hres
  | text =>
    rw [cast_text hnull, spelled_eq, htext]
    exact ⟨rfl, rfl, rfl, rfl⟩
  | numeric =>
    rw [resists, hnull, Bool.not_false, Bool.true_and, Bool.not_eq_false'] at hres
    rw [cast, hnull, if_neg Bool.false_ne_true, numerify_of_numeric hres]
    exact ⟨rfl, rfl, rfl, rfl⟩
  | integer =>
    rw [cast, hnull]
    exact keepsString_asInt c _
  | real =>
    rw [cast, hnull]
    exact keepsString_asDouble c _

theorem cast_name (hblob : c.flags.blob = true) (n n' : Nat) (aff : Affinity) : c.cast n aff = c.cast n' aff := by
  cases hnull : c.flags.null with
  | true => rw [cast_of_null hnull, cast_of_null hnull]
  | false =>
    cases aff with
    | none => rw [cast, cast, hnull, hblob]; rfl
    | text =>
      have htext : c.flags.textual = true := by rw [Flags.textual, hblob, Bool.or_true]
      rw [cast_text hnull, cast_text hnull, spelled_eq, spelled_eq, htext]
      rfl
    | numeric => rfl
    | integer => rfl
    | real => rfl

theorem Held.value_of_blob (h : c.Held) (hc : c.flags.blob = true) : c.flags.null = false := by
  have hkind := h.kind
  revert hkind hc
  generalize c.flags.null = n, c.flags.int = i, c.flags.real = x, c.flags.str = s, c.flags.blob = b
  revert n i x s b
  decide

theorem Castable.expandBlob_of_unblobbed (h : c.Castable) (hc : c.flags.blob = false) (n : Nat) : c.expandBlob n = c := by
  cases hzero : c.flags.zero with
  | true =>
    rw [h.zeros hzero] at hc
    cases hc
  | false => rw [Cell.expandBlob, hzero, if_neg Bool.false_ne_true]

theorem Castable.expandBlob_of_null (h : c.Castable) (hnull : c.flags.null = true) (n : Nat) : c.expandBlob n = c := by
  refine h.expandBlob_of_unblobbed (Bool.eq_false_of_not_eq_true fun hblob => ?_) n
  rw [h.value_of_blob hblob] at hnull
  cases hnull

theorem Castable.expandBlob_of_real (h : c.Castable) {n : Nat} (hreal : (c.expandBlob n).flags.real = true) :
    c.expandBlob n = c := by
  cases hzero : c.flags.zero with
  | true =>
    rw [flags_expandBlob_of_zero hzero, (h.alone (.inr (h.zeros hzero))).2.1] at hreal
    cases hreal
  | false => rw [Cell.expandBlob, hzero, if_neg Bool.false_ne_true]

theorem Castable.resists_expandBlob (h : c.Castable) (n : Nat) (aff : Affinity) :
    (c.expandBlob n).resists aff = c.resists aff := by
  cases hzero : c.flags.zero with
  | true =>
    obtain ⟨-, hreal, -⟩ := h.alone (.inr (h.zeros hzero))
    rw [resists.eq_def, resists.eq_def, flags_expandBlob_of_zero hzero n, hreal]
    cases aff with
    | integer => simp
    | _ => rfl
  | false => rw [Cell.expandBlob, hzero, if_neg Bool.false_ne_true]

theorem Castable.done_cast {aff : Affinity} (h : c.Castable) (hres : c.resists aff = false) (n : Nat) :
    ((c.expandBlob n).cast n aff).flags.null = c.flags.null ∧ ((c.expandBlob n).cast n aff).flags.zero = false ∧
      (((c.expandBlob n).cast n aff).flags.null = true ∨ ((c.expandBlob n).cast n aff).flags.Has aff) := by
  cases hnull : c.flags.null with
  | true =>
    have hzero := zero_expandBlob n c
    rw [h.expandBlob_of_null hnull] at hzero ⊢
    rw [cast_of_null hnull]
    exact ⟨hnull, hzero, .inl hnull⟩
  | false =>
    have hnull' : (c.expandBlob n).flags.null = false := by rw [(flags_expandBlob n c).1, hnull]
    have hhas := has_cast (h.expandBlob n).toHeld hnull' (zero_expandBlob n c)
      ((h.resists_expandBlob n aff).trans hres) n
    exact ⟨hhas.null, hhas.zero, .inr hhas⟩

end Cell

namespace Bank

variable {b b₁ b₂ : Bank} {r : Nat} {c d : Cell}

/-- The registers are as if one had been put, with what that writes to the buffers. -/
structure Puts (b : Bank) (r : Nat) (c : Cell) (b₁ : Bank) : Prop where
  cellAt : ∀ j, b₁.cellAt j = (b.put r c).cellAt j
  reach : b₁.reach = b.reach
  size : b₁.cells.size = b.cells.size

namespace Puts

theorem of_knowing {t : Sheet} {l : Ledger} (h : (b.knowing t l).Puts r c b₁) : b.Puts r c b₁ where
  cellAt j := by
    rw [h.cellAt, put_knowing]
    rfl
  reach := h.reach
  size := h.size

theorem refl (t : Sheet) (l : Ledger) : b.Puts r (b.cellAt r) (b.knowing t l) := by
  refine ⟨fun j => ?_, rfl, rfl⟩
  rw [put_cellAt]
  rfl

theorem self (h : b.Puts r c b₁) (hr : r < b.cells.size) : b₁.cellAt r = c := by
  rw [h.cellAt, cellAt_put hr, if_pos rfl]

theorem of_string (hs : (b.cellAt r).KeepsString c) (t : Sheet) (l : Ledger) :
    b.Puts r c ((b.withCell r c).knowing t l) where
  cellAt j := by
    rw [put_of_string ⟨hs.data, hs.term⟩]
    rfl
  reach := rfl
  size := size_withCell b r c

theorem trans (h : b.Puts r c b₁) (hr : r < b.cells.size) (hs : c.KeepsString d) (h' : b₁.Puts r d b₂) :
    b.Puts r d b₂ where
  cellAt j := by
    have hsame : (b₁.cellAt r).KeepsString d := by rwa [h.self hr]
    rw [h'.cellAt, put_of_string ⟨hsame.data, hsame.term⟩, cellAt_withCell (h.size ▸ hr), cellAt_put hr, h.cellAt,
      cellAt_put hr, hs.overwrites, hs.seeing]
    split <;> rfl
  reach := h'.reach.trans h.reach
  size := h'.size.trans h.size

theorem of_same (hcells : ∀ j, b₁.cellAt j = b.cellAt j) (hreach : b₁.reach = b.reach)
    (hsize : b₁.cells.size = b.cells.size) (hr : r < b.cells.size) (h : b₁.Puts r c b₂) : b.Puts r c b₂ where
  cellAt j := by rw [h.cellAt, cellAt_put (hsize ▸ hr), cellAt_put hr, hcells, hcells]
  reach := h.reach.trans hreach
  size := h.size.trans hsize

theorem same (h : b.Puts r (b.cellAt r) b₁) (j : Nat) : b₁.cellAt j = b.cellAt j := by rw [h.cellAt, put_cellAt]

end Puts

theorem Became.puts (h : b.Became r c b₁) : b.Puts r c b₁ := ⟨h.cellAt, h.reach, h.size⟩

variable {P : Nat → Fact → Cell → Prop} {known : Nat → Bool}

theorem Heeds.expandBlob_run (h : b.Heeds P) (hP : ∀ j, Fact.Law (P j)) (hr : r < b.reach) :
    ∃ b₁, expandBlob r b = .ok () b₁ ∧ b.Puts r ((b.cellAt r).expandBlob b.fresh) b₁ ∧ b₁.Heeds P ∧
      ((b.cellAt r).flags.zero = false → b₁.fresh = b.fresh) := by
  obtain ⟨t, l, hlook, h₁⟩ := h.flags_run hP hr
  cases hzero : (b.cellAt r).flags.zero with
  | true =>
    obtain ⟨b₁, hrun, hbecame, h₂⟩ := h₁.became hP (hP r) hr Cell.expandBlob
    rw [Function.update_eq_self] at h₂
    refine ⟨b₁, ?_, hbecame.puts, h₂, fun hz => by cases hz⟩
    rw [expandBlob, bind_of_ok hlook, hzero, if_pos rfl]
    exact hrun
  | false =>
    rw [Cell.expandBlob, hzero, if_neg Bool.false_ne_true]
    refine ⟨b.knowing t l, ?_, .refl t l, h₁, fun _ => rfl⟩
    rw [expandBlob, bind_of_ok hlook, hzero, if_neg Bool.false_ne_true]
    rfl

theorem Obeys.integerify_of_int (h : b.Obeys Fact.Honest) (hr : r < b.reach) (hint : (b.cellAt r).flags.int = true) :
    ∃ t l, integerify r b = .ok () ((b.withCell r ((b.cellAt r).asInt (b.cellAt r).int)).knowing t l) ∧
      ((b.withCell r ((b.cellAt r).asInt (b.cellAt r).int)).knowing t l).Obeys Fact.Honest := by
  have hself : (b.cellAt r).asInt (b.cellAt r).int = (b.cellAt r).withFlags ((b.cellAt r).flags.retype .onlyInt) := by
    rw [Cell.asInt, Content.int, intToWord_wordToInt]
    rfl
  obtain ⟨t, l, hlook, h₁⟩ := h.flags_run Fact.law_honest hr
  obtain ⟨t₂, l₂, hrun, h₂⟩ := h₁.retype_run hr .onlyInt
  rw [withCell_knowing, knowing_knowing, cellAt_knowing, ← hself] at hrun h₂
  refine ⟨t₂, l₂, ?_, h₂⟩
  rw [integerify, bind_of_ok hlook, hint]
  exact hrun

theorem Obeys.integerify_run (h : b.Obeys Fact.True) (hr : r < b.reach) {n : Int}
    (hn : (b.cellAt r).wholeValue = .ok n) (hfits : fitsWord n = true) :
    ∃ t l, integerify r b = .ok () ((b.withCell r ((b.cellAt r).asInt n)).knowing t l) ∧
      ((b.withCell r ((b.cellAt r).asInt n)).knowing t l).Obeys Fact.Honest := by
  obtain ⟨t, l, hlook, h₁⟩ := h.flags_run Fact.law_true hr
  cases hint : (b.cellAt r).flags.int with
  | true =>
    rw [Cell.wholeValue, hint, if_pos rfl] at hn
    cases hn
    exact (h.mono Fact.Holds.flags).integerify_of_int hr hint
  | false =>
    obtain ⟨t₂, l₂, h₂, hvalue⟩ := h₁.intValue_run hr
    rw [cellAt_knowing, hn, knowing_knowing] at hvalue
    rw [knowing_knowing] at h₂
    obtain ⟨t₃, l₃, hrun, h₃⟩ := h₂.heeds.asInt_run (fun _ => Fact.law_true) hr hfits
    rw [cellAt_knowing, withCell_knowing, knowing_knowing] at hrun h₃
    refine ⟨t₃, l₃, ?_, ?_⟩
    · rw [integerify, bind_of_ok hlook, hint]
      exact (bind_of_ok hvalue).trans hrun
    · refine of_update (r := r) (h₃.mono fun {j f c} hf => ?_)
      by_cases hj : j = r
      · rw [hj, Function.update_self] at hf ⊢
        exact hf.flags
      · rw [Function.update_of_ne hj] at hf ⊢
        exact hf.flags

/-- The number that a register is taken for. A zero that is known may be read as the other one. -/
theorem Heeds.realValue_run (h : b.Heeds fun j => Fact.Realless Fact.True (known j = false)) (hr : r < b.reach) :
    ∃ a t l, realValue r b = .ok a (b.knowing t l) ∧
      (a.toDouble = (b.cellAt r).realValue ∨
        (b.cellAt r).flags.real = true ∧ (b.cellAt r).real.Kept (known r) a.toDouble) ∧
      (b.knowing t l).Heeds fun j => Fact.Realless Fact.True (known j = false) := by
  obtain ⟨t, l, hlook, h₁⟩ := h.flags_run (fun _ => Fact.law_true.realless _) hr
  rw [realValue, bind_of_ok hlook, Cell.realValue]
  cases hreal : (b.cellAt r).flags.real with
  | true =>
    obtain ⟨t', hk, -, ht⟩ := id h₁
    refine ⟨_, t, l, hk.real_run r, .inr ⟨rfl, ?_⟩, h₁⟩
    refine ((ht r hr).1.kept (hk.plain.fact r)).mono fun hsome => ?_
    exact Bool.eq_true_of_not_eq_false fun hknown => by simp [(ht r hr).2 hknown] at hsome
  | false =>
    cases hint : (b.cellAt r).flags.int with
    | true =>
      refine ⟨.int (b.cellAt r).int, t, l, ?_, .inl rfl, h₁⟩
      exact bind_of_ok (h₁.int_run hr fun f hf => hf.1.int (by simp))
    | false =>
      cases htext : (b.cellAt r).flags.textual with
      | true => exact ⟨.real (b.cellAt r).readReal.value, t, l, rfl, .inl rfl, h₁⟩
      | false => exact ⟨.real .zero, t, l, rfl, .inl rfl, h₁⟩

theorem Heeds.asDouble_run (h : b.Heeds P) (hP : ∀ j, Fact.Law (P j)) (hr : r < b.reach) (a : Number) :
    ∃ t l, (do setReal r a false; retype r .onlyReal) b =
        .ok () ((b.withCell r ((b.cellAt r).asDouble a.toDouble)).knowing t l) ∧
      ((b.withCell r ((b.cellAt r).asDouble a.toDouble)).knowing t l).Heeds fun j => Fact.Realless Fact.Honest (j = r) := by
  have hQ : Fact.Law (Fact.Realless Fact.Honest True) := Fact.law_honest.realless _
  have hlt := h.lt_size hr
  obtain ⟨t, hk, hreach, ht⟩ := h
  obtain ⟨b', hset, t₁, l₁, rfl, hk₁, hs₁⟩ := hk.setReal_run r (x := a) fun hc : false = true => nomatch hc
  have h₁ := Heeds.of_noted hP hQ hk hreach ht hr hk₁ hs₁ (hk.plain.fact r)
    ⟨fun g hg => (hP r).flags (ht r hr) g hg, fun _ => by simp [Fact.dropReal, Fact.real?, Fact.isConstantReal]⟩
  obtain ⟨t₂, l₂, hlook, h₂⟩ := h₁.flags_run (law_update hP hQ r) hr
  obtain ⟨t₃, l₃, hmark, h₃⟩ := h₂.setFlags_run (law_update hP hQ r) hQ hr ((b.cellAt r).flags.retype .onlyReal)
    fun f hf => by
      rw [Function.update_self] at hf
      exact ⟨f.honest_noteFlags _ _, hf.2⟩
  rw [cellAt_knowing, cellAt_withCell_self hlt, knowing_knowing] at hlook
  rw [knowing_knowing, withCell_knowing, knowing_knowing, cellAt_knowing, cellAt_withCell_self hlt, withCell_withCell]
    at hmark h₃
  refine ⟨t₃, l₃, (bind_of_ok hset).trans ((bind_of_ok hlook).trans hmark), h₃.mono fun {j f c} hf => ?_⟩
  by_cases hj : j = r
  · subst hj
    rw [Function.update_self] at hf
    exact ⟨hf.1, fun _ => hf.2 trivial⟩
  · rw [Function.update_idem, Function.update_of_ne hj] at hf
    exact ⟨(hP j).flags hf, fun hjr => absurd hjr hj⟩

theorem Heeds.realify_run (h : b.Heeds fun j => Fact.Realless Fact.True (known j = false)) (hr : r < b.reach) :
    ∃ x t l, realify r b = .ok () ((b.withCell r ((b.cellAt r).asDouble x)).knowing t l) ∧
      (x = (b.cellAt r).realValue ∨ (b.cellAt r).flags.real = true ∧ (b.cellAt r).real.Kept (known r) x) ∧
      ((b.withCell r ((b.cellAt r).asDouble x)).knowing t l).Heeds fun j => Fact.Realless Fact.Honest (j = r) := by
  obtain ⟨a, t, l, hvalue, ha, h₁⟩ := h.realValue_run hr
  obtain ⟨t₂, l₂, hrun, h₂⟩ := h₁.asDouble_run (fun _ => Fact.law_true.realless _) hr a
  rw [cellAt_knowing, withCell_knowing, knowing_knowing] at hrun h₂
  exact ⟨a.toDouble, t₂, l₂, (bind_of_ok hvalue).trans hrun, ha, h₂⟩

/-- The rule for a value with the marks `f`. -/
def force (r : Nat) (f : Flags) : Affinity → BankM Unit
  | .none => throw (.assertion "implement me!")
  | .numeric => numerify r
  | .integer => integerify r
  | .real => realify r
  | .text => do
    setFlags r f.orText
    applyAffinity r Affinity.text.code
    check (← flags r).str
    let f ← flags r
    setFlags r f.justText

theorem cast_of_value {f : Flags} (hlook : flags r b = .ok f b₁) (hf : f.null = false) (aff : Affinity) :
    cast r aff.code b = force r f aff b₁ := by
  rw [cast, bind_of_ok hlook, if_neg (by rw [hf]; exact Bool.false_ne_true)]
  cases aff <;> rfl

theorem Obeys.spelled_run (h : b.Obeys Fact.Honest) (hr : r < b.reach)
    (hvalue : (b.cellAt r).flags.numeric = true ∨ (b.cellAt r).flags.textual = true) :
    ∃ b₁, (do setFlags r (b.cellAt r).flags.orText; applyAffinity r Affinity.text.code) b = .ok () b₁ ∧
      b.Puts r ((b.cellAt r).spelled b.fresh) b₁ ∧ b₁.Obeys Fact.Honest := by
  obtain ⟨t₁, l₁, hset, h₁⟩ := h.setFlags_run Fact.law_honest hr (b.cellAt r).flags.orText fun f _ => f.honest_noteFlags _ _
  obtain ⟨t₂, l₂, hlook, h₂⟩ := h₁.flags_run Fact.law_honest hr
  rw [cellAt_knowing, cellAt_withCell_self (h.lt_size hr), knowing_knowing] at hlook
  rw [knowing_knowing] at h₂
  have hstart : (do setFlags r (b.cellAt r).flags.orText; applyAffinity r Affinity.text.code) b =
      (if !(b.cellAt r).flags.textual && (b.cellAt r).flags.numeric then stringify r true else pure ())
        ((b.withCell r ((b.cellAt r).withFlags (b.cellAt r).flags.orText)).knowing t₂ l₂) :=
    (bind_of_ok hset).trans (bind_of_ok hlook)
  rw [hstart, Cell.spelled_eq]
  cases htext : (b.cellAt r).flags.textual with
  | true =>
    exact ⟨_, rfl, .of_string (c := (b.cellAt r).withFlags (b.cellAt r).flags.orText) ⟨rfl, rfl, rfl, rfl⟩ t₂ l₂, h₂⟩
  | false =>
    have hself : (b.cellAt r).withFlags (b.cellAt r).flags.orText = b.cellAt r := by
      have hno : (b.cellAt r).flags.str = (b.cellAt r).flags.textual := by
        rw [Flags.textual, Bool.or_eq_false_iff] at htext
        rw [Flags.textual, htext.1, htext.2]
        rfl
      exact congrArg (fun s => (b.cellAt r).withFlags { (b.cellAt r).flags with str := s }) hno.symm
    rw [hself, withCell_cellAt] at h₂
    obtain ⟨b₃, hrun, hbecame, h₃⟩ := h₂.heeds.became (fun _ => Fact.law_honest) Fact.law_honest hr
      fun name => Cell.stringify name true
    rw [hself, withCell_cellAt, hvalue.resolve_right (by simp [htext])]
    exact ⟨b₃, hrun, hbecame.puts, of_update h₃⟩

theorem Obeys.forceText_run (h : b.Obeys Fact.Honest) (hr : r < b.reach) (hnull : (b.cellAt r).flags.null = false)
    (hvalue : (b.cellAt r).flags.numeric = true ∨ (b.cellAt r).flags.textual = true) :
    ∃ b₁, force r (b.cellAt r).flags .text b = .ok () b₁ ∧ b.Puts r ((b.cellAt r).cast b.fresh .text) b₁ ∧
      b₁.Obeys Fact.Honest := by
  obtain ⟨b₂, hrun, hputs, h₂⟩ := h.spelled_run hr hvalue
  have hr₂ : r < b₂.reach := hputs.reach ▸ hr
  have hcell := hputs.self (h.lt_size hr)
  obtain ⟨t₃, l₃, hlook₃, h₃⟩ := h₂.flags_run Fact.law_honest hr₂
  obtain ⟨t₄, l₄, hlook₄, h₄⟩ := h₃.flags_run Fact.law_honest hr₂
  rw [hcell] at hlook₃
  rw [cellAt_knowing, hcell, knowing_knowing] at hlook₄
  rw [knowing_knowing] at h₄
  obtain ⟨t₅, l₅, hset, h₅⟩ := h₄.setFlags_run Fact.law_honest hr₂ ((b.cellAt r).spelled b.fresh).flags.justText
    fun f _ => f.honest_noteFlags _ _
  rw [cellAt_knowing, hcell, withCell_knowing, knowing_knowing] at hset h₅
  rw [Cell.cast_text hnull]
  have hkept : ((b.cellAt r).spelled b.fresh).KeepsString
      (((b.cellAt r).spelled b.fresh).withFlags ((b.cellAt r).spelled b.fresh).flags.justText) := ⟨rfl, rfl, rfl, rfl⟩
  refine ⟨_, ?_, hputs.trans (h.lt_size hr) hkept (.of_string (hcell.symm ▸ hkept) t₅ l₅), h₅⟩
  have hcheck : (check ((b.cellAt r).spelled b.fresh).flags.str : BankM Unit) (b₂.knowing t₃ l₃) =
      .ok () (b₂.knowing t₃ l₃) := by
    rw [Cell.str_spelled hvalue]
    rfl
  rw [force, ← bind_assoc, bind_of_ok hrun, bind_of_ok hlook₃, bind_of_ok hcheck, bind_of_ok hlook₄, hset]

theorem Obeys.numerify_run (h : b.Obeys Fact.Honest) (hr : r < b.reach) (hnumber : (b.cellAt r).flags.numeric = true) :
    ∃ t l, numerify r b = .ok () ((b.withCell r (b.cellAt r).numerify).knowing t l) ∧
      ((b.withCell r (b.cellAt r).numerify).knowing t l).Obeys Fact.Honest := by
  obtain ⟨t, l, hlook, h₁⟩ := h.flags_run Fact.law_honest hr
  obtain ⟨t₁, l₁, hset, h₂⟩ := h₁.setFlags_run Fact.law_honest hr
    { (b.cellAt r).flags with str := false, blob := false } fun f _ => f.honest_noteFlags _ _
  have hsome : ((b.cellAt r).flags.int || (b.cellAt r).flags.real || (b.cellAt r).flags.null) = true := by
    rw [show ((b.cellAt r).flags.int || (b.cellAt r).flags.real) = true from hnumber, Bool.true_or]
  rw [Cell.numerify_of_numeric hnumber]
  rw [cellAt_knowing, withCell_knowing, knowing_knowing] at hset h₂
  refine ⟨t₁, l₁, ?_, h₂⟩
  rw [numerify, bind_of_ok hlook, hsome]
  exact hset

theorem Heeds.cast_run (h : b.Heeds fun j => Fact.Realless Fact.True (known j = false)) (hr : r < b.reach)
    (hc : (b.cellAt r).Held) {aff : Affinity} (hres : (b.cellAt r).resists aff = false) :
    ∃ d b₁, cast r aff.code b = .ok () b₁ ∧ b.Puts r d b₁ ∧ (b.cellAt r).Forced b.fresh aff (known r) d ∧
      b₁.Heeds fun j => Fact.Realless Fact.Honest (j = r ∧ aff = .real ∧ (b.cellAt r).flags.null = false) := by
  obtain ⟨t, l, hlook, h₁⟩ := h.flags_run (fun _ => Fact.law_true.realless _) hr
  have htrue : (b.knowing t l).Obeys Fact.True := h₁.mono And.left
  cases hnull : (b.cellAt r).flags.null with
  | true =>
    refine ⟨b.cellAt r, b.knowing t l, ?_, .refl t l, .inl ?_, h₁.mono fun hf => ⟨hf.1.flags, fun hp => by cases hp.2.2⟩⟩
    · rw [cast, bind_of_ok hlook, hnull]
      rfl
    · rw [Cell.cast_of_null hnull]
  | false =>
    rw [cast_of_value hlook hnull]
    have hunless {b₂ : Bank} (haff : aff ≠ .real) (h₂ : b₂.Obeys Fact.Honest) :
        b₂.Heeds fun j => Fact.Realless Fact.Honest (j = r ∧ aff = .real ∧ false = false) :=
      h₂.heeds.mono fun hf => ⟨hf, fun hp => absurd hp.2.1 haff⟩
    rw [Cell.resists.eq_def, hnull, Bool.not_false, Bool.true_and] at hres
    cases aff with
    | none => cases hres
    | numeric =>
      obtain ⟨t₁, l₁, hrun, h₂⟩ := (htrue.mono Fact.Holds.flags).numerify_run hr (by simpa using hres)
      rw [cellAt_knowing, withCell_knowing, knowing_knowing] at hrun h₂
      refine ⟨_, _, hrun, .of_string ?_ t₁ l₁, .inl ?_, hunless nofun h₂⟩
      · rw [Cell.numerify_of_numeric (by simpa using hres)]
        exact ⟨rfl, rfl, rfl, rfl⟩
      · rw [Cell.cast, hnull]
        rfl
    | integer =>
      obtain ⟨n, hn, hfits, hvalue⟩ := Cell.wholeValue_of_fits hres
      obtain ⟨t₁, l₁, hrun, h₂⟩ := htrue.integerify_run hr hn hfits
      rw [cellAt_knowing, withCell_knowing, knowing_knowing] at hrun h₂
      refine ⟨_, _, hrun, .of_string (Cell.keepsString_asInt _ n) t₁ l₁, .inl ?_, hunless nofun h₂⟩
      rw [Cell.cast, hnull, hvalue]
      rfl
    | real =>
      obtain ⟨x, t₁, l₁, hrun, hx, h₂⟩ := h₁.realify_run hr
      rw [cellAt_knowing, withCell_knowing, knowing_knowing] at hrun h₂
      refine ⟨_, _, hrun, .of_string (Cell.keepsString_asDouble _ x) t₁ l₁, ?_, h₂.mono fun hf => ⟨hf.1, fun hp => hf.2 hp.1⟩⟩
      rw [Cell.Forced, Cell.cast, hnull]
      obtain rfl | ⟨hreal, hx⟩ := hx
      · exact .inl rfl
      · exact .inr ⟨rfl, hreal, x, hx, rfl⟩
    | text =>
      obtain ⟨b₂, hrun, hputs, h₂⟩ := (htrue.mono Fact.Holds.flags).forceText_run hr hnull (hc.valued hnull)
      exact ⟨_, b₂, hrun, hputs.of_knowing, .inl rfl, hunless nofun h₂⟩

theorem fails_bind {α β : Type} (x : BankM α) {f : α → BankM β} (hf : ∀ a b, ∃ e b', f a b = .error e b') (b : Bank) :
    ∃ e b', (x >>= f) b = .error e b' := by
  cases hx : x b with
  | ok a b₁ =>
    obtain ⟨e, b', he⟩ := hf a b₁
    exact ⟨e, b', (bind_of_ok hx).trans he⟩
  | error e b₁ => exact ⟨e, b₁, bind_of_error hx⟩

theorem Obeys.numerify_refused (h : b.Obeys Fact.Honest) (hr : r < b.reach) (hnull : (b.cellAt r).flags.null = false)
    (hnumber : (b.cellAt r).flags.numeric = false) : ∃ e b₁, numerify r b = .error e b₁ := by
  obtain ⟨t, l, hlook, -⟩ := h.flags_run Fact.law_honest hr
  have hnone : ((b.cellAt r).flags.int || (b.cellAt r).flags.real || (b.cellAt r).flags.null) = false := by
    rw [show ((b.cellAt r).flags.int || (b.cellAt r).flags.real) = false from hnumber, hnull]
    rfl
  rw [numerify, bind_of_ok hlook, hnone]
  refine fails_bind _ (fun _ => fails_bind _ fun c b₁ => ?_) _
  by_cases hfit : c.readInt.fit = .exact
  · rw [if_pos hfit]
    exact fails_bind _ (fun _ => fails_bind _ fun _ b₁ => ⟨_, b₁, rfl⟩) b₁
  · rw [if_neg hfit]
    exact fails_bind _ (fun _ => fails_bind _ fun _ b₁ => ⟨_, b₁, rfl⟩) b₁

theorem Obeys.integerify_refused (h : b.Obeys Fact.True) (hr : r < b.reach) (hint : (b.cellAt r).flags.int = false)
    (hreal : (b.cellAt r).flags.real = true) (hlarge : (b.cellAt r).real.trunc?.any fitsWord = false) :
    ∃ e b₁, integerify r b = .error e b₁ := by
  obtain ⟨t, l, hlook, h₁⟩ := h.flags_run Fact.law_true hr
  obtain ⟨t₂, l₂, -, hvalue⟩ := h₁.intValue_run hr
  rw [cellAt_knowing, Cell.wholeValue, hint, hreal] at hvalue
  rw [integerify, bind_of_ok hlook, hint]
  cases hfinite : (b.cellAt r).real.isFinite with
  | false =>
    rw [hfinite] at hvalue
    exact ⟨_, _, bind_of_error hvalue⟩
  | true =>
    rw [hfinite] at hvalue
    rw [Double.trunc?_eq hfinite, Option.any_some] at hlarge
    refine ⟨.integerRange, (b.knowing t l).knowing t₂ l₂, (bind_of_ok hvalue).trans (bind_of_error ?_)⟩
    rw [setInt, hlarge]
    rfl

theorem Obeys.cast_refused (h : b.Obeys Fact.True) (hr : r < b.reach) {aff : Affinity}
    (hres : (b.cellAt r).resists aff = true) : ∃ e b₁, cast r aff.code b = .error e b₁ := by
  obtain ⟨t, l, hlook, h₁⟩ := h.flags_run Fact.law_true hr
  rw [Cell.resists.eq_def, Bool.and_eq_true, Bool.not_eq_true'] at hres
  obtain ⟨hnull, hres⟩ := hres
  rw [cast_of_value hlook hnull]
  cases aff with
  | none => exact ⟨_, _, rfl⟩
  | numeric => exact (h₁.mono Fact.Holds.flags).numerify_refused hr hnull (by simpa using hres)
  | integer =>
    simp only [Bool.and_eq_true, Bool.not_eq_true'] at hres
    exact h₁.integerify_refused hr hres.1.1 hres.1.2 hres.2
  | real => cases hres
  | text => cases hres

theorem Heeds.recast_run {aff : Affinity}
    (h : b.Heeds fun j => Fact.Realless Fact.Honest (j = r ∧ aff = .real ∧ (b.cellAt r).flags.null = false))
    (hr : r < b.reach) (hdone : (b.cellAt r).flags.null = true ∨ (b.cellAt r).flags.Has aff) :
    ∃ b₁, cast r aff.code b = .ok () b₁ ∧ b.Puts r (b.cellAt r) b₁ := by
  obtain ⟨t, l, hlook, h₁⟩ := h.flags_run (fun _ => Fact.law_honest.realless _) hr
  have hhonest : (b.knowing t l).Obeys Fact.Honest := h₁.mono And.left
  cases hnull : (b.cellAt r).flags.null with
  | true =>
    refine ⟨b.knowing t l, ?_, .refl t l⟩
    rw [cast, bind_of_ok hlook, hnull]
    rfl
  | false =>
    have hhas := hdone.resolve_left (by simp [hnull])
    have hself (n : Nat) := Cell.cast_of_has hnull hhas n
    rw [cast_of_value hlook hnull]
    cases aff with
    | none => exact hhas.elim
    | numeric =>
      obtain ⟨t₁, l₁, hrun, -⟩ := hhonest.numerify_run hr hhas.1
      have hcell := hself 0
      rw [Cell.cast, hnull, if_neg Bool.false_ne_true] at hcell
      rw [cellAt_knowing, hcell, withCell_knowing, withCell_cellAt, knowing_knowing] at hrun
      exact ⟨_, hrun, .refl t₁ l₁⟩
    | integer =>
      obtain ⟨t₁, l₁, hrun, -⟩ := hhonest.integerify_of_int hr hhas.1
      have hcell : (b.cellAt r).asInt (b.cellAt r).int = b.cellAt r := by
        rw [Cell.asInt, Content.int, intToWord_wordToInt, hhas.2]
        rfl
      rw [cellAt_knowing, hcell, withCell_knowing, withCell_cellAt, knowing_knowing] at hrun
      exact ⟨_, hrun, .refl t₁ l₁⟩
    | real =>
      have hlaw (j : Nat) := Fact.law_honest.realless (j = r ∧ Affinity.real = .real ∧ (b.cellAt r).flags.null = false)
      have hcell : (b.cellAt r).asDouble (b.cellAt r).real = b.cellAt r := by
        rw [Cell.asDouble, hhas.2]
        rfl
      obtain ⟨t₁, l₁, hlook₁, h₂⟩ := h₁.flags_run hlaw hr
      rw [knowing_knowing] at hlook₁ h₂
      obtain ⟨t', hk, -, ht⟩ := id h₂
      have hraw := hk.real_run r
      rw [(ht r hr).2 ⟨rfl, rfl, hnull⟩, Option.getD_none] at hraw
      obtain ⟨t₂, l₂, hrun, -⟩ := h₂.asDouble_run hlaw hr (.real (b.cellAt r).real)
      rw [cellAt_knowing, Number.toDouble, hcell, withCell_knowing, withCell_cellAt, knowing_knowing] at hrun
      refine ⟨_, ?_, .refl t₂ l₂⟩
      have hvalue : realValue r (b.knowing t l) = .ok (.real (b.cellAt r).real) (b.knowing t₁ l₁) := by
        rw [realValue, bind_of_ok hlook₁, cellAt_knowing, hhas.1, if_pos rfl, hraw]
        rfl
      exact (bind_of_ok hvalue).trans hrun
    | text =>
      obtain ⟨b₂, hrun, hputs, -⟩ := hhonest.forceText_run hr hnull (.inr (by rw [cellAt_knowing, Flags.textual, hhas.1]; rfl))
      rw [cellAt_knowing, hself] at hputs
      exact ⟨b₂, hrun, hputs.of_knowing⟩

theorem trackedCast_eq (hr : r < b.reach) {aff : Affinity} {k : Instruction} (hp1 : k.p1 = r) (hp2 : k.p2 = aff.code) :
    Tracked.cast k b = (do expandBlob r; cast r aff.code) b := by
  have hcode : (check (65 ≤ k.p2 && k.p2 ≤ 69) : BankM Unit) b = .ok () b := by
    rw [hp2]
    cases aff <;> rfl
  have hregister : register k.p1 b = .ok r b := by
    rw [hp1, register_run (Int.natCast_nonneg r) (by exact_mod_cast hr), Int.toNat_natCast]
  rw [Tracked.cast, bind_of_ok hcode, bind_of_ok hregister, hp2]

theorem Obeys.trackedCast_run (h : b.Obeys Fact.True) (hr : r < b.reach) (hc : (b.cellAt r).Castable) {aff : Affinity}
    (hres : (b.cellAt r).resists aff = false) :
    ∃ d b₁, (do expandBlob r; cast r aff.code) b = .ok () b₁ ∧ b.Puts r d b₁ ∧
      ((b.cellAt r).expandBlob b.fresh).Forced b.fresh aff (b.knowsReal r) d ∧
      b₁.Heeds fun j => Fact.Realless Fact.Honest (j = r ∧ aff = .real ∧ (b.cellAt r).flags.null = false) := by
  have hknown : b.Heeds fun j => Fact.Realless Fact.True (b.knowsReal j = false) := by
    obtain ⟨t, hk, hreach, ht⟩ := h
    refine ⟨t, hk, hreach, fun j hj => ⟨ht j hj, fun hj => ?_⟩⟩
    rw [knowsReal, hk.current, Option.map_some, Option.getD_some] at hj
    exact Option.not_isSome_iff_eq_none.mp (by simp [hj])
  obtain ⟨b₁, hexpand, hputs, h₁, hfresh⟩ := hknown.expandBlob_run (fun _ => Fact.law_true.realless _) hr
  have hlt := h.lt_size hr
  have hcell := hputs.self hlt
  have hres₁ : (b₁.cellAt r).resists aff = false := by rw [hcell, hc.resists_expandBlob, hres]
  have hheld : (b₁.cellAt r).Held := by
    rw [hcell]
    exact (hc.expandBlob _).toHeld
  obtain ⟨d, b₂, hrun, hputs₂, hforced, h₂⟩ := h₁.cast_run (hputs.reach ▸ hr) hheld hres₁
  have hnull : (b₁.cellAt r).flags.null = (b.cellAt r).flags.null := by rw [hcell, (Cell.flags_expandBlob _ _).1]
  rw [hnull] at h₂
  rw [hcell] at hforced
  cases hzero : (b.cellAt r).flags.zero with
  | false =>
    have hself : (b.cellAt r).expandBlob b.fresh = b.cellAt r := by
      rw [Cell.expandBlob, hzero, if_neg Bool.false_ne_true]
    rw [hself] at hputs
    rw [hfresh hzero] at hforced
    exact ⟨d, b₂, (bind_of_ok hexpand).trans hrun, .of_same hputs.same hputs.reach hputs.size hlt hputs₂, hforced, h₂⟩
  | true =>
    have hblob := hc.zeros hzero
    have hflags := Cell.flags_expandBlob_of_zero hzero b.fresh
    have hreal : ((b.cellAt r).expandBlob b.fresh).flags.real = false := by
      rw [hflags]
      exact (hc.alone (.inr hblob)).2.1
    have hd := hforced.resolve_right fun hx => by simp [hreal] at hx
    have hkept : ((b.cellAt r).expandBlob b.fresh).KeepsString d := by
      rw [hd]
      refine Cell.keepsString_cast ?_ ?_ (hcell ▸ hres₁) _
      · rw [hflags, Flags.textual, hblob, Bool.or_true]
      · rw [hflags, hc.value_of_blob hblob]
    rw [Cell.cast_name (by rw [hflags, hblob]) b₁.fresh b.fresh] at hd
    exact ⟨d, b₂, (bind_of_ok hexpand).trans hrun, hputs.trans hlt hkept hputs₂, .inl hd, h₂⟩

theorem Obeys.trackedCast_refused (h : b.Obeys Fact.True) (hr : r < b.reach) (hc : (b.cellAt r).Castable) {aff : Affinity}
    (hres : (b.cellAt r).resists aff = true) : ∃ e b₁, (do expandBlob r; cast r aff.code) b = .error e b₁ := by
  obtain ⟨b₁, hexpand, hputs, h₁, -⟩ := h.heeds.expandBlob_run (fun _ => Fact.law_true) hr
  have hres₁ : (b₁.cellAt r).resists aff = true := by rw [hputs.self (h.lt_size hr), hc.resists_expandBlob, hres]
  obtain ⟨e, b₂, hrun⟩ := Obeys.cast_refused h₁ (hputs.reach ▸ hr) hres₁
  exact ⟨e, b₂, (bind_of_ok hexpand).trans hrun⟩

theorem Heeds.retrackedCast_run {aff : Affinity}
    (h : b.Heeds fun j => Fact.Realless Fact.Honest (j = r ∧ aff = .real ∧ (b.cellAt r).flags.null = false))
    (hr : r < b.reach) (hzero : (b.cellAt r).flags.zero = false)
    (hdone : (b.cellAt r).flags.null = true ∨ (b.cellAt r).flags.Has aff) :
    ∃ b₁, (do expandBlob r; cast r aff.code) b = .ok () b₁ ∧ ∀ j, b₁.cellAt j = b.cellAt j := by
  obtain ⟨b₁, hexpand, hputs, h₁, -⟩ := h.expandBlob_run (fun _ => Fact.law_honest.realless _) hr
  have hself : (b.cellAt r).expandBlob b.fresh = b.cellAt r := by
    rw [Cell.expandBlob, hzero, if_neg Bool.false_ne_true]
  rw [hself] at hputs
  have h₂ : b₁.Heeds fun j => Fact.Realless Fact.Honest (j = r ∧ aff = .real ∧ (b₁.cellAt r).flags.null = false) := by
    rw [hputs.same]
    exact h₁
  obtain ⟨b₂, hrun, hputs₂⟩ := h₂.recast_run (hputs.reach ▸ hr) (by rw [hputs.same]; exact hdone)
  exact ⟨b₂, (bind_of_ok hexpand).trans hrun, fun j => (hputs₂.same j).trans (hputs.same j)⟩

theorem directCast_run (hr : r < b.cells.size) {aff : Affinity} {k : Instruction} (hp1 : k.p1 = r) (hp2 : k.p2 = aff.code) :
    ∃ b₂, Direct.cast k b = .ok () b₂ ∧ b.Puts r (((b.cellAt r).expandBlob b.fresh).cast b.fresh aff) b₂ := by
  have hcode : (Affinity.ofCode? (k.p2 % 256)).getD .text = aff := by
    rw [hp2]
    cases aff <;> rfl
  have hslot : slot k.p1 b = .ok r b := by rw [hp1, slot_run (Int.natCast_nonneg r), Int.toNat_natCast]
  refine ⟨b.renewed.put r (((b.cellAt r).expandBlob b.fresh).cast b.fresh aff), ?_,
    ⟨fun j => ?_, reach_put b.renewed _ _, size_put b.renewed _ _⟩⟩
  · rw [Direct.cast, bind_of_ok hslot, modifyCellWith_run, hcode]
  · rw [cellAt_put (b := b.renewed) hr, cellAt_put hr]
    rfl

theorem Puts.others {c' : Cell} (h : b.Puts r c b₁) (h' : b.Puts r c' b₂) (hr : r < b.cells.size) (hs : c'.KeepsString c)
    {j : Nat} (hj : j ≠ r) : b₁.cellAt j = b₂.cellAt j := by
  rw [h.cellAt, h'.cellAt, cellAt_put hr, cellAt_put hr, if_neg (Ne.symm hj), if_neg (Ne.symm hj), hs.overwrites, hs.seeing]

end Bank

theorem Cell.Forced.keepsString {c d : Cell} {n : Nat} {aff : Affinity} {known : Bool} (h : c.Forced n aff known d) :
    (c.cast n aff).KeepsString d := by
  obtain rfl | ⟨-, -, x, -, rfl⟩ := h <;> exact ⟨rfl, rfl, rfl, rfl⟩

theorem Cell.Forced.flags {c d : Cell} {n : Nat} {aff : Affinity} {known : Bool} (h : c.Forced n aff known d) :
    d.flags = (c.cast n aff).flags := by
  obtain rfl | ⟨-, -, x, -, rfl⟩ := h <;> rfl

namespace Machine

variable {m m₁ : Machine} {r : Nat} {k : Instruction} {aff : Affinity}

theorem thenNext_of_ok {x : MachineM Unit} (h : x m = .ok () m₁) : thenNext x m = .ok .next m₁ := bind_of_ok h

theorem step_cast (hop : k.op = .cast) (pc : Int) :
    step pc k = thenNext (choose .ifPos (Tracked.cast k) (Direct.cast k)) := by
  rw [step, hop]

theorem step_cast_tracked (hop : k.op = .cast) (htracked : m.status.tracked .ifPos = true) {b : Bank}
    (h : Tracked.cast k m.bank = .ok () b) (pc : Int) : step pc k m = .ok .next (m.withBank b) := by
  rw [step_cast hop]
  exact thenNext_of_ok ((choose_of_tracked htracked).trans (lift_of_ok h))

/-- A machine with a numeral and a fraction in its registers. -/
def castMachine : Machine where
  bank := .ofCells #[.null, .ofBytes .onlyStr 0 [53], .ofReal ⟨0x4004000000000000⟩] true true 1
  program := #[]
  status := { useFlagCache := true }
  database := default
  cursors := #[]
  once := #[]
  registers := 3
  width := 0

end Machine

end QueryMachine
