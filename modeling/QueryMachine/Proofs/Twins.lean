import Mathlib
import QueryMachine.Cell.Convert
import QueryMachine.Proofs.Unaware

/-!
Banks that show the same although their strings lie in other buffers, their borrowed strings may be
marked otherwise, and they may differ in a payload that no mark names.
-/

namespace QueryMachine

theorem rel_cases {α β : Type} {r : α → β → Prop} {o : Option α} {o' : Option β}
    (h : Option.Rel r o o') :
    o = none ∧ o' = none ∨ ∃ a a', o = some a ∧ o' = some a' ∧ r a a' := by
  cases h with
  | some h => exact .inr ⟨_, _, rfl, rfl, h⟩
  | none => exact .inl ⟨rfl, rfl⟩

theorem rel_mono {α β : Type} {r r' : α → β → Prop} {o : Option α} {o' : Option β} (h : Option.Rel r o o')
    (hr : ∀ a a', r a a' → r' a a') : Option.Rel r' o o' := by
  cases h with
  | some h => exact .some (hr _ _ h)
  | none => exact .none

/-- Which names of two banks stand for the same buffer. -/
abbrev Naming := Nat → Nat → Prop

namespace Naming

/-- Names correspond one to one, and only names that have been taken do. -/
structure OneToOne (ρ : Naming) (n n' : Nat) : Prop where
  iff : ∀ {x x' y y'}, ρ x x' → ρ y y' → (x = y ↔ x' = y')
  lt : ∀ {x x'}, ρ x x' → x < n ∧ x' < n'

def add (ρ : Naming) (n n' : Nat) : Naming := fun x x' => ρ x x' ∨ x = n ∧ x' = n'

variable {ρ : Naming} {n n' m m' : Nat}

theorem OneToOne.mono (h : ρ.OneToOne n n') (hn : n ≤ m) (hn' : n' ≤ m') : ρ.OneToOne m m' := by
  refine ⟨h.iff, fun hx => ?_⟩
  have := h.lt hx
  omega

theorem OneToOne.add (h : ρ.OneToOne n n') : (ρ.add n n').OneToOne (n + 1) (n' + 1) := by
  constructor
  · rintro x x' y y' (hx | ⟨rfl, rfl⟩) (hy | ⟨rfl, rfl⟩)
    · exact h.iff hx hy
    · have := h.lt hx
      omega
    · have := h.lt hy
      omega
    · simp
  · rintro x x' (hx | ⟨rfl, rfl⟩)
    · have := h.lt hx
      omega
    · omega

/-- Every name that has been taken stands for itself. -/
def same (n : Nat) : Naming := fun x x' => x = x' ∧ x < n

theorem same_oneToOne (n : Nat) : (same n).OneToOne n n := by
  constructor
  · rintro x x' y y' ⟨rfl, _⟩ ⟨rfl, _⟩
    rfl
  · rintro x x' ⟨rfl, hx⟩
    exact ⟨hx, hx⟩

end Naming

namespace Cell

/-- A cell as the rules leave it. The names that are `live` are those of buffers with room and of strings
that are shown. -/
structure Sound (live : Nat → Prop) (c : Cell) : Prop where
  number : c.flags.int = true → c.flags.real = false
  counted : c.flags.zero = true → c.flags.str = false ∧ c.flags.int = false ∧ c.flags.real = false
  lasting : c.flags.static = true → c.flags.ephem = false
  stored : c.flags.textual = true → c.flags.zero = false → c.data.isSome = true
  owned : ∀ n, c.own = some n → (live n ↔ c.room ≠ 0)
  held : c.flags.textual = true → ∀ b, c.data = some b → live b.name

/-- Two cells with the same string, which may lie in buffers with other names. -/
structure Matches (ρ : Naming) (c c' : Cell) : Prop where
  size : c'.size = c.size
  term : c'.flags.term = c.flags.term
  own : Option.Rel ρ c.own c'.own
  data : Option.Rel (fun b b' => ρ b.name b'.name ∧ b'.bytes = b.bytes) c.data c'.data

namespace Matches

variable {ρ : Naming} {c c' d d' : Cell} {n n' : Nat}

theorem bytes (h : c.Matches ρ c') : c'.bytes = c.bytes := by
  rcases rel_cases h.data with ⟨ho, ho'⟩ | ⟨x, x', ho, ho', hx⟩
  · simp only [Content.bytes, ho, ho']
  · simp only [Content.bytes, ho, ho', h.size, hx.2]

theorem isNone (h : c.Matches ρ c') : c'.data.isNone = c.data.isNone := by
  rcases rel_cases h.data with ⟨ho, ho'⟩ | ⟨x, x', ho, ho', _⟩ <;> simp [ho, ho']

theorem isOwner (hρ : ρ.OneToOne n n') (h : c.Matches ρ c') : c'.isOwner = c.isOwner := by
  unfold Cell.isOwner
  rcases rel_cases h.data with ⟨ho, ho'⟩ | ⟨x, x', ho, ho', hx⟩ <;>
    rcases rel_cases h.own with ⟨hp, hp'⟩ | ⟨y, y', hp, hp', hy⟩ <;> rw [ho, ho', hp, hp']
  · rfl
  · rfl
  · rw [Bool.eq_iff_iff]
    simpa using (hρ.iff hx.1 hy).symm

theorem written (h : c.Matches ρ c') : c'.written = c.written := by
  rcases rel_cases h.data with ⟨ho, ho'⟩ | ⟨x, x', ho, ho', hx⟩
  · simp only [Cell.written, ho, ho']
  · simp only [Cell.written, ho, ho', hx.2, h.size, h.term]

theorem overwrites (hρ : ρ.OneToOne n n') (h : c.Matches ρ c') (hd : d.Matches ρ d') :
    c'.overwrites d' = c.overwrites d := by
  have hsome : c'.own.isSome = c.own.isSome := by
    rcases rel_cases h.own with ⟨ho, ho'⟩ | ⟨x, x', ho, ho', _⟩ <;> simp [ho, ho']
  have hown : (d'.own == c'.own) = (d.own == c.own) := by
    rcases rel_cases h.own with ⟨ho, ho'⟩ | ⟨x, x', ho, ho', hx⟩ <;>
      rcases rel_cases hd.own with ⟨hp, hp'⟩ | ⟨y, y', hp, hp', hy⟩ <;> rw [ho, ho', hp, hp']
    · rfl
    · rfl
    · rw [Bool.eq_iff_iff]
      simpa using (hρ.iff hy hx).symm
  have hdata : (d'.data != c'.data) = (d.data != c.data) := by
    rcases rel_cases h.data with ⟨ho, ho'⟩ | ⟨⟨x, bytes⟩, ⟨x', bytes'⟩, ho, ho', hx, rfl⟩ <;>
      rcases rel_cases hd.data with ⟨hp, hp'⟩ | ⟨⟨y, old⟩, ⟨y', old'⟩, hp, hp', hy, rfl⟩ <;>
      rw [ho, ho', hp, hp']
    · rfl
    · rfl
    · rw [Bool.eq_iff_iff]
      simp only [bne_iff_ne, ne_eq, Option.some.injEq, Buffer.mk.injEq, hρ.iff hy hx]
  simp only [Cell.overwrites, hsome, hown, h.isOwner hρ, hdata, h.term, hd.term]

theorem seeing_cases (hρ : ρ.OneToOne n n') (h : c.Matches ρ c') (hd : d.Matches ρ d') :
    c.seeing d = d ∧ c'.seeing d' = d' ∨ ∃ x x' bytes, ρ x x' ∧
      c.seeing d = { d with data := some ⟨x, bytes⟩ } ∧ c'.seeing d' = { d' with data := some ⟨x', bytes⟩ } := by
  rcases rel_cases h.data with ⟨ho, ho'⟩ | ⟨x, x', ho, ho', hx⟩
  · simp [Cell.seeing, ho, ho']
  · rcases rel_cases hd.data with ⟨hp, hp'⟩ | ⟨y, y', hp, hp', hy⟩
    · simp [Cell.seeing, ho, ho', hp, hp']
    · simp only [Cell.seeing, ho, ho', hp, hp', h.written, hy.2, ← hρ.iff hx.1 hy.1]
      split
      · exact .inr ⟨_, _, _, hy.1, rfl, rfl⟩
      · exact .inl ⟨rfl, rfl⟩

end Matches

structure Twin (ρ : Naming) (c c' : Cell) : Prop where
  flags : ∃ e, c'.flags = { c.flags with ephem := e } ∧ (c.flags.static = true → e = false)
  word : c.flags.int = true ∨ c.flags.real = true → c'.payload = c.payload
  zeros : c.flags.zero = true → c'.zeros = c.zeros
  size : c'.size = c.size
  room : c'.room = c.room
  own : Option.Rel ρ c.own c'.own
  data : Option.Rel (fun b b' => ρ b.name b'.name ∧ b'.bytes = b.bytes) c.data c'.data

/-- The payload that the marks of a cell name. -/
structure Names (c : Cell) (p : UInt64) : Prop where
  word : c.flags.int = true ∨ c.flags.real = true → p = c.payload
  zeros : c.flags.zero = true → wrapHalf p.toNat = c.zeros

theorem released_released (c : Cell) : c.released.released = c.released := by
  unfold released
  cases h : c.flags.dynamic with
  | true => rfl
  | false => simp [h]

/-- The cell `c` with the content of `src`, whose string is borrowed, and the payload `p`. -/
def borrowed (c : Cell) (loan : Loan) (src : Cell) (p : UInt64) : Cell :=
  { c with
    toContent := { src.toContent with payload := p, flags := loan.mark src.flags }
    attachment := src.attachment }

theorem borrowed_flags (c src : Cell) (p : UInt64) (hs : src.flags.static = false) :
    (c.borrowed .ephem src p).flags = { src.flags with dyn := false, static := false, ephem := true } := by
  simp [borrowed, Loan.mark, hs]

theorem borrowed_flags_static (c src : Cell) (p : UInt64) (hs : src.flags.static = true) :
    (c.borrowed .ephem src p).flags = src.flags := by
  simp [borrowed, Loan.mark, hs]

namespace Twin

variable {ρ σ : Naming} {c c' d d' : Cell} {n n' : Nat}

theorem mono (h : c.Twin ρ c') (hρ : ∀ x x', ρ x x' → σ x x') : c.Twin σ c' where
  flags := h.flags
  word := h.word
  zeros := h.zeros
  size := h.size
  room := h.room
  own := rel_mono h.own hρ
  data := rel_mono h.data fun _ _ hx => ⟨hρ _ _ hx.1, hx.2⟩

theorem strings (h : c.Twin ρ c') : c.Matches ρ c' := by
  obtain ⟨e, hflags, _⟩ := h.flags
  exact ⟨h.size, by rw [hflags], h.own, h.data⟩

theorem null (h : c.Twin ρ c') : c'.flags.null = c.flags.null := by
  obtain ⟨e, hflags, _⟩ := h.flags
  rw [hflags]

theorem int (h : c.Twin ρ c') : c'.flags.int = c.flags.int := by
  obtain ⟨e, hflags, _⟩ := h.flags
  rw [hflags]

theorem real (h : c.Twin ρ c') : c'.flags.real = c.flags.real := by
  obtain ⟨e, hflags, _⟩ := h.flags
  rw [hflags]

theorem static (h : c.Twin ρ c') : c'.flags.static = c.flags.static := by
  obtain ⟨e, hflags, _⟩ := h.flags
  rw [hflags]

theorem lasting (h : c.Twin ρ c') (hs : c.flags.static = true) : c'.flags.ephem = false := by
  obtain ⟨e, hflags, hstatic⟩ := h.flags
  rw [hflags, hstatic hs]

theorem zero (h : c.Twin ρ c') : c'.flags.zero = c.flags.zero := by
  obtain ⟨e, hflags, _⟩ := h.flags
  rw [hflags]

theorem textual (h : c.Twin ρ c') : c'.flags.textual = c.flags.textual := by
  obtain ⟨e, hflags, _⟩ := h.flags
  rw [hflags]
  rfl

theorem dynamic (h : c.Twin ρ c') : c'.flags.dynamic = c.flags.dynamic := by
  obtain ⟨e, hflags, _⟩ := h.flags
  rw [hflags]
  rfl

theorem bytes (h : c.Twin ρ c') : c'.bytes = c.bytes := h.strings.bytes

theorem view (h : c.Twin ρ c') : c'.view = c.view := by
  obtain ⟨e, hflags, _⟩ := h.flags
  have hguard {α : Type} {p : Bool} {x y : α} (hxy : p = true → x = y) :
      (if p then some x else none) = if p then some y else none := by
    cases p with
    | true => rw [hxy rfl]
    | false => rfl
  have hzeros : (c.flags.blob && c.flags.zero) = true → c'.zeros = c.zeros :=
    fun hz => h.zeros (Bool.and_eq_true_iff.mp hz).2
  have hint : (c.flags.int && !(c.flags.blob && c.flags.zero)) = true → c'.int = c.int :=
    fun hi => congrArg wordToInt (h.word (.inl (Bool.and_eq_true_iff.mp hi).1))
  have hreal : (c.flags.real && !(c.flags.blob && c.flags.zero)) = true → c'.real = c.real :=
    fun hr => congrArg Double.mk (h.word (.inr (Bool.and_eq_true_iff.mp hr).1))
  simp only [Content.view, hflags, Flags.textual, h.size, h.strings.isNone, h.bytes, hguard hzeros, hguard hint,
    hguard hreal]
  rfl

theorem realValue (h : c.Twin ρ c') : c'.realValue = c.realValue := by
  have hbytes := h.bytes
  simp only [Cell.realValue, Cell.readReal, h.real, h.int, h.textual, hbytes]
  split
  · rename_i hr
    exact congrArg Double.mk (h.word (.inr hr))
  · split
    · rename_i hi
      exact congrArg (fun w => Double.ofInt (wordToInt w)) (h.word (.inl hi))
    · rfl

theorem isOwner (hρ : ρ.OneToOne n n') (h : c.Twin ρ c') : c'.isOwner = c.isOwner := h.strings.isOwner hρ

theorem seeing (hρ : ρ.OneToOne n n') (h : c.Twin ρ c') (hd : d.Twin ρ d') :
    (c.seeing d).Twin ρ (c'.seeing d') := by
  obtain ⟨hs, hs'⟩ | ⟨_, _, _, hx, hs, hs'⟩ := h.strings.seeing_cases hρ hd.strings <;> rw [hs, hs']
  · exact hd
  · exact ⟨hd.flags, hd.word, hd.zeros, hd.size, hd.room, hd.own, .some ⟨hx, rfl⟩⟩

theorem remark (h : c.Twin ρ c') {f f' : Flags} {p p' : UInt64}
    (hf : ∃ e, f' = { f with ephem := e } ∧ (f.static = true → e = false))
    (hword : f.int = true ∨ f.real = true → p' = p)
    (hzeros : f.zero = true → wrapHalf p'.toNat = wrapHalf p.toNat) :
    ((c.withFlags f).withPayload p).Twin ρ ((c'.withFlags f').withPayload p') where
  flags := hf
  word := hword
  zeros := hzeros
  size := h.size
  room := h.room
  own := h.own
  data := h.data

theorem withPayload (h : c.Twin ρ c') (p : UInt64) : (c.withPayload p).Twin ρ (c'.withPayload p) :=
  h.remark h.flags (fun _ => rfl) (fun _ => rfl)

theorem withFlags (h : c.Twin ρ c') {f : Flags} (hs : f.static = true → f.ephem = false)
    (hword : f.int = true ∨ f.real = true → c'.payload = c.payload) (hzero : f.zero = false) :
    (c.withFlags f).Twin ρ (c'.withFlags f) :=
  h.remark ⟨f.ephem, rfl, hs⟩ hword (by simp [hzero])

theorem retype (h : c.Twin ρ c') {f : Flags} (hf : f.ephem = false ∧ f.static = false ∧ f.zero = false)
    (hword : f.int = true ∨ f.real = true → c'.payload = c.payload) :
    (c.withFlags (c.flags.retype f)).Twin ρ (c'.withFlags (c'.flags.retype f)) := by
  obtain ⟨e, hflags, hstatic⟩ := h.flags
  refine h.remark ⟨e, ?_, ?_⟩ ?_ ?_
  · simp [hflags, Flags.storage, hf.1]
  · simpa [Flags.retype, Flags.storage, Flags.union, hf.2.1] using hstatic
  · simpa [Flags.retype, Flags.storage, Flags.union] using hword
  · simp [Flags.storage, hf.2.2]

theorem grow (h : c.Twin ρ c') (hρ : ρ.OneToOne n n') (k : Nat) (preserve : Bool) :
    (c.grow n k preserve).Twin (ρ.add n n') (c'.grow n' k preserve) := by
  obtain ⟨e, hflags, _⟩ := h.flags
  have hbytes := h.bytes
  simp only [Cell.grow, h.room, hbytes, h.isOwner hρ, hflags]
  rcases rel_cases h.own with ⟨ho, ho'⟩ | ⟨x, x', ho, ho', hx⟩
  · rw [ho, ho']
    exact ⟨⟨false, rfl, fun _ => rfl⟩, h.word, h.zeros, h.size, rfl, .some (.inr ⟨rfl, rfl⟩),
      .some ⟨.inr ⟨rfl, rfl⟩, rfl⟩⟩
  · rw [ho, ho']
    simp only
    split
    · exact ⟨⟨false, rfl, fun _ => rfl⟩, h.word, h.zeros, h.size, rfl, .some (.inr ⟨rfl, rfl⟩),
        .some ⟨.inr ⟨rfl, rfl⟩, rfl⟩⟩
    · exact ⟨⟨false, rfl, fun _ => rfl⟩, h.word, h.zeros, h.size, rfl, .some (.inl hx),
        .some ⟨.inl hx, rfl⟩⟩

theorem expandBlob (h : c.Twin ρ c') (hρ : ρ.OneToOne n n') (hz : c.flags.zero = true) :
    (c.expandBlob n).Twin (ρ.add n n') (c'.expandBlob n') := by
  obtain ⟨e, hflags, _⟩ := h.flags
  have hz' : c'.flags.zero = true := by rw [hflags]; exact hz
  have hgrow := h.grow hρ (max 1 (c.size + c.zeros.toNat)) true
  simp only [Cell.expandBlob, hz, hz', if_true, h.zeros hz, h.size]
  obtain ⟨e', hflags', hstatic⟩ := hgrow.flags
  refine ⟨⟨e', by rw [hflags'], hstatic⟩, hgrow.word, nofun, rfl, hgrow.room, hgrow.own, ?_⟩
  rcases rel_cases hgrow.data with ⟨ho, ho'⟩ | ⟨x, x', ho, ho', hx⟩
  · rw [ho, ho']
    exact .none
  · rw [ho, ho']
    exact .some ⟨hx.1, by simp only [hx.2]⟩

theorem addTerminator (h : c.Twin ρ c') (hρ : ρ.OneToOne n n') :
    (c.addTerminator n).Twin (ρ.add n n') (c'.addTerminator n') := by
  have hgrow := h.grow hρ (c.size + 2) true
  obtain ⟨e', hflags', hstatic⟩ := hgrow.flags
  simp only [Cell.addTerminator, h.size]
  exact ⟨⟨e', by rw [hflags'], hstatic⟩, hgrow.word, hgrow.zeros, hgrow.size, hgrow.room, hgrow.own,
    hgrow.data⟩

theorem integerAffinity (h : c.Twin ρ c') (hr : c.flags.real = true) :
    c.integerAffinity.Twin ρ c'.integerAffinity := by
  have hreal : c'.real = c.real := congrArg Double.mk (h.word (.inr hr))
  simp only [Cell.integerAffinity, hreal]
  split
  · exact (h.withPayload (intToWord c.real.toInt64Clamped)).retype (f := .onlyInt) ⟨rfl, rfl, rfl⟩ fun _ => rfl
  · exact h

theorem beside (h : c.Twin ρ c') (p : UInt64) {g : Flags → Flags}
    (hg : ∀ f e, g { f with ephem := e } = { g f with ephem := e }) (hs : ∀ f, (g f).static = f.static) :
    ((c.withFlags (g c.flags)).withPayload p).Twin ρ ((c'.withFlags (g c'.flags)).withPayload p) := by
  obtain ⟨e, hflags, hstatic⟩ := h.flags
  exact h.remark ⟨e, by rw [hflags, hg], by rwa [hs]⟩ (fun _ => rfl) (fun _ => rfl)

theorem applyNumericAffinity (h : c.Twin ρ c') :
    (c.applyNumericAffinity true).Twin ρ (c'.applyNumericAffinity true) := by
  have hbytes := h.bytes
  simp only [Cell.applyNumericAffinity, Cell.readReal, Cell.readInt, hbytes, if_true]
  split
  · split
    · exact h.beside (intToWord (Decimal.readInt c.bytes).value) (g := fun f => { f with int := true })
        (fun _ _ => rfl) fun _ => rfl
    · exact (h.beside (Decimal.readReal c.bytes).value.bits (g := fun f => { f with real := true })
        (fun _ _ => rfl) fun _ => rfl).integerAffinity rfl
  · exact h

theorem applyNumeric (h : c.Twin ρ c') :
    (c.applyAffinity n .numeric).Twin ρ (c'.applyAffinity n' .numeric) := by
  obtain ⟨e, hflags, _⟩ := h.flags
  have hstr : c'.flags.str = c.flags.str := by rw [hflags]
  simp only [Cell.applyAffinity, Affinity.isNumeric, h.int, h.real, hstr, if_true]
  split
  · exact h
  split
  · rename_i hr
    exact h.integerAffinity hr
  split
  · exact h.applyNumericAffinity
  · exact h

theorem loaned (h : c.Twin ρ c') (hs : c.flags.static = false) (e : Bool) :
    (c.withFlags { c.flags with ephem := e }).Twin ρ c' := by
  obtain ⟨e', hflags, _⟩ := h.flags
  exact ⟨⟨e', hflags, by simp [Cell.withFlags, hs]⟩, h.word, h.zeros, h.size, h.room, h.own, h.data⟩

theorem clearExtern (h : c.Twin ρ c') : c.clearExtern.Twin ρ c'.clearExtern :=
  ⟨⟨false, rfl, nofun⟩, nofun, nofun, h.size, h.room, h.own, h.data⟩

theorem released (h : c.Twin ρ c') : c.released.Twin ρ c'.released := by
  simp only [Cell.released, h.dynamic]
  split
  · exact h.clearExtern
  · exact h

theorem borrowed (h : c.Twin ρ c') (hd : d.Twin ρ d') (loan : Loan) {p : UInt64} (hp : d.Names p) :
    (c.borrowed loan d p).Twin ρ (c'.borrowed loan d' d'.payload) where
  flags := by
    obtain ⟨e, hflags, hstatic⟩ := hd.flags
    cases hs : d.flags.static with
    | true => exact ⟨e, by simp [Cell.borrowed, Loan.mark, hs, hflags], fun _ => hstatic hs⟩
    | false =>
      refine ⟨loan == .ephem, by simp [Cell.borrowed, Loan.mark, hs, hflags], ?_⟩
      cases loan <;> simp [Cell.borrowed, Loan.mark, hs]
  word hf := by
    have hf' : d.flags.int = true ∨ d.flags.real = true := by
      simpa [Cell.borrowed, Loan.mark, apply_ite Flags.int, apply_ite Flags.real] using hf
    exact (hd.word hf').trans (hp.word hf').symm
  zeros hf := by
    have hf' : d.flags.zero = true := by
      simpa [Cell.borrowed, Loan.mark, apply_ite Flags.zero] using hf
    exact (hd.zeros hf').trans (hp.zeros hf').symm
  size := hd.size
  room := h.room
  own := h.own
  data := hd.data

end Twin

theorem flags_grow (name n : Nat) (preserve : Bool) (c : Cell) :
    (c.grow name n preserve).flags = { c.flags with dyn := false, ephem := false, static := false } := by
  simp only [grow]
  cases c.own with
  | none => rfl
  | some own =>
    simp only
    split <;> rfl

theorem grow_cases (name n : Nat) (preserve : Bool) (c : Cell) :
    (∃ b, (c.grow name n preserve).data = some b ∧ (c.grow name n preserve).own = some b.name ∧
      (b.name = name ∧ (c.grow name n preserve).room = capacity n ∨
        c.own = some b.name ∧ (c.grow name n preserve).room = c.room ∧ n ≤ c.room)) := by
  simp only [grow]
  cases c.own with
  | none => exact ⟨_, rfl, rfl, .inl ⟨rfl, rfl⟩⟩
  | some own =>
    simp only
    split
    · exact ⟨_, rfl, rfl, .inl ⟨rfl, rfl⟩⟩
    · exact ⟨_, rfl, rfl, .inr ⟨rfl, rfl, by omega⟩⟩

theorem capacity_pos (n : Nat) : 0 < capacity n := by
  unfold capacity
  split <;> omega

theorem expandBlob_owner {c : Cell} (hz : c.flags.zero = true) (name : Nat) :
    (c.expandBlob name).isOwner = true ∧ (c.expandBlob name).room ≠ 0 := by
  obtain ⟨b, hdata, hown, hcases⟩ := grow_cases name (max 1 (c.size + c.zeros.toNat)) true c
  simp only [Cell.expandBlob, hz, if_true, isOwner, hdata, hown]
  refine ⟨by simp, ?_⟩
  rcases hcases with ⟨_, hroom⟩ | ⟨_, hroom, hle⟩
  · have := capacity_pos (max 1 (c.size + c.zeros.toNat))
    omega
  · omega

theorem makeWriteable_of_zero {c : Cell} (hz : c.flags.zero = true) (name : Nat) :
    c.makeWriteable name = c.expandBlob name := by
  obtain ⟨howner, hroom⟩ := expandBlob_owner hz name
  simp [makeWriteable, howner, hroom]

theorem makeWriteable_of_not_zero {c : Cell} (hz : c.flags.zero = false) (name : Nat) :
    c.makeWriteable name =
      if c.flags.textual && (c.room == 0 || !c.isOwner) then c.addTerminator name else c := by
  simp only [makeWriteable, expandBlob, hz, Bool.false_eq_true, if_false]

namespace Sound

variable {live : Nat → Prop} {c d : Cell} {n : Nat}

theorem add (h : c.Sound live) (hn : c.own ≠ some n) : c.Sound (fun x => live x ∨ x = n) where
  number := h.number
  counted := h.counted
  lasting := h.lasting
  stored := h.stored
  owned x hx := by
    have hne : x ≠ n := fun heq => hn (heq ▸ hx)
    simp only [hne, or_false]
    exact h.owned x hx
  held ht b hb := .inl (h.held ht b hb)

theorem seeing (h : d.Sound live) (c : Cell) : (c.seeing d).Sound live := by
  unfold Cell.seeing
  split
  · rename_i b shared _ hd
    split
    · refine ⟨h.number, h.counted, h.lasting, fun _ _ => rfl, h.owned, fun ht b hb => ?_⟩
      cases hb
      exact h.held ht shared hd
    · exact h
  · exact h

theorem untextual (h : c.Sound live) {f : Flags} (p : UInt64) (ht : f.textual = false)
    (hz : f.zero = false) (hn : f.int = true → f.real = false)
    (hl : f.static = true → f.ephem = false) :
    ((c.withFlags f).withPayload p).Sound live where
  number := hn
  counted := by simp [withPayload, withFlags, hz]
  lasting := hl
  stored := by simp [withPayload, withFlags, ht]
  owned := h.owned
  held := by simp [withPayload, withFlags, ht]

theorem retype (h : c.Sound live) {f : Flags} (ht : f.textual = false)
    (hf : f.ephem = false ∧ f.static = false ∧ f.zero = false) (hn : f.int = true → f.real = false) :
    (c.withFlags (c.flags.retype f)).Sound live := by
  simp only [Flags.textual, Bool.or_eq_false_iff] at ht
  refine h.untextual c.payload ?_ ?_ ?_ ?_
  · simp [Flags.storage, Flags.textual, ht]
  · simp [Flags.storage, hf]
  · simpa [Flags.retype, Flags.storage, Flags.union] using hn
  · simpa [Flags.retype, Flags.storage, Flags.union, hf] using h.lasting

theorem withPayload (h : c.Sound live) {p : UInt64} : (c.withPayload p).Sound live :=
  ⟨h.number, h.counted, h.lasting, h.stored, h.owned, h.held⟩

theorem loaned (h : c.Sound live) (hs : c.flags.static = false) (e : Bool) :
    (c.withFlags { c.flags with ephem := e }).Sound live :=
  ⟨h.number, h.counted, by simp [withFlags, hs], h.stored, h.owned, h.held⟩

theorem clearExtern (h : c.Sound live) : c.clearExtern.Sound live :=
  ⟨nofun, nofun, nofun, nofun, h.owned, nofun⟩

theorem released (h : c.Sound live) : c.released.Sound live := by
  unfold Cell.released
  split
  · exact h.clearExtern
  · exact h

theorem borrowed (h : c.Sound live) (hd : d.Sound live) (loan : Loan) (p : UInt64) :
    (c.borrowed loan d p).Sound live := by
  have hflags : (c.borrowed loan d p).flags = loan.mark d.flags := rfl
  have hmark : ∃ x y z, loan.mark d.flags = { d.flags with dyn := x, static := y, ephem := z } ∧
      (y = true → z = false) := by
    cases hs : d.flags.static with
    | true =>
      exact ⟨d.flags.dyn, d.flags.static, d.flags.ephem, by rw [Loan.mark, if_pos hs], hd.lasting⟩
    | false =>
      refine ⟨false, loan == .static, loan == .ephem, by simp [Loan.mark, hs], ?_⟩
      cases loan <;> simp
  obtain ⟨x, y, z, hmark, hlasting⟩ := hmark
  rw [hmark] at hflags
  refine ⟨?_, ?_, ?_, ?_, h.owned, ?_⟩
  · rw [hflags]; exact hd.number
  · rw [hflags]; exact hd.counted
  · rw [hflags]; exact hlasting
  · rw [hflags]; exact hd.stored
  · rw [hflags]; exact hd.held

theorem of_grow (h : c.Sound live) {k : Nat} (hk : 0 < k) (preserve : Bool) :
    ∃ b, (c.grow n k preserve).data = some b ∧ (live b.name ∨ b.name = n) ∧
      ∀ x, (c.grow n k preserve).own = some x →
        ((live x ∨ x = n) ↔ (c.grow n k preserve).room ≠ 0) := by
  obtain ⟨b, hdata, hown, hcases⟩ := grow_cases n k preserve c
  refine ⟨b, hdata, ?_, fun x hx => ?_⟩
  · rcases hcases with ⟨hname, _⟩ | ⟨hc, _, hroom⟩
    · exact .inr hname
    · exact .inl ((h.owned _ hc).mpr (by omega))
  · rw [hown] at hx
    cases hx
    rcases hcases with ⟨hname, hroom⟩ | ⟨hc, hroom, hle⟩
    · have := capacity_pos k
      exact iff_of_true (.inr hname) (by omega)
    · exact iff_of_true (.inl ((h.owned _ hc).mpr (by omega))) (by omega)

theorem expandBlob (h : c.Sound live) (hz : c.flags.zero = true) :
    (c.expandBlob n).Sound (fun x => live x ∨ x = n) := by
  obtain ⟨b, hdata, hlive, hown⟩ :=
    h.of_grow (n := n) (k := max 1 (c.size + c.zeros.toNat)) (by omega) true
  obtain ⟨hstr, hint, hreal⟩ := h.counted hz
  simp only [Cell.expandBlob, hz, if_true, flags_grow, hdata]
  refine ⟨?_, nofun, nofun, fun _ _ => rfl, hown, fun _ b' hb' => ?_⟩
  · simp [hint]
  · cases hb'
    exact hlive

theorem addTerminator (h : c.Sound live) : (c.addTerminator n).Sound (fun x => live x ∨ x = n) := by
  obtain ⟨b, hdata, hlive, hown⟩ := h.of_grow (n := n) (k := c.size + 2) (by omega) true
  simp only [Cell.addTerminator, flags_grow]
  refine ⟨h.number, h.counted, nofun, fun _ _ => ?_, hown, fun _ b' hb' => ?_⟩
  · rw [hdata]
    rfl
  · rw [hdata] at hb'
    cases hb'
    exact hlive

theorem integerAffinity (h : c.Sound live) : c.integerAffinity.Sound live := by
  simp only [Cell.integerAffinity]
  split
  · exact (h.withPayload (p := intToWord c.real.toInt64Clamped)).retype (f := .onlyInt) rfl ⟨rfl, rfl, rfl⟩ (fun _ => rfl)
  · exact h

theorem applyNumeric (h : c.Sound live) : (c.applyAffinity n .numeric).Sound live := by
  simp only [Cell.applyAffinity, Affinity.isNumeric, Cell.applyNumericAffinity, if_true]
  split
  · exact h
  split
  · exact h.integerAffinity
  split
  · rename_i hint hreal hstr
    have hzero : c.flags.zero = false := by
      cases hz : c.flags.zero with
      | true => exact absurd (h.counted hz).1 (by simp [hstr])
      | false => rfl
    split
    · split
      · exact ⟨fun _ => by simpa using hreal, by simp [hzero], h.lasting, h.stored, h.owned, h.held⟩
      · refine integerAffinity ⟨fun hi => absurd hi ?_, by simp [hzero], h.lasting, h.stored, h.owned,
          h.held⟩
        exact hint
    · exact h
  · exact h

theorem room_ne_zero (h : c.Sound live) (ht : c.flags.textual = true) (hz : c.flags.zero = false)
    (ho : c.isOwner = true) : c.room ≠ 0 := by
  obtain ⟨b, hdata⟩ := Option.isSome_iff_exists.mp (h.stored ht hz)
  have hown : c.own = some b.name := by
    simp only [Cell.isOwner, hdata, Option.map_some, beq_iff_eq] at ho
    exact ho.symm
  exact (h.owned b.name hown).mp (h.held ht b hdata)

end Sound

end Cell

namespace Bank

/-- Two banks that show the same, the first of them as the rules leave it. -/
structure Twins (ρ : Naming) (live : Nat → Prop) (b b' : Bank) : Prop where
  size : b'.cells.size = b.cells.size
  reach : b'.reach = b.reach
  fits : b.reach ≤ b.cells.size
  names : ρ.OneToOne b.fresh b'.fresh
  sound : ∀ i, (b.cellAt i).Sound live
  cells : ∀ i, (b.cellAt i).Twin ρ (b'.cellAt i)

variable {ρ : Naming} {live : Nat → Prop} {b b' : Bank} {i : Nat} {c c' : Cell}

theorem Twins.withCell (h : b.Twins ρ live b') (hi : i < b.cells.size) (hs : c.Sound live)
    (hc : c.Twin ρ c') : (b.withCell i c).Twins ρ live (b'.withCell i c') where
  size := by rw [size_withCell, size_withCell]; exact h.size
  reach := h.reach
  fits := by rw [size_withCell]; exact h.fits
  names := h.names
  sound j := by
    rw [cellAt_withCell hi]
    split
    · exact hs
    · exact h.sound j
  cells j := by
    rw [cellAt_withCell hi, cellAt_withCell (h.size ▸ hi)]
    split
    · exact hc
    · exact h.cells j

theorem Twins.put (h : b.Twins ρ live b') (hi : i < b.cells.size) (hs : c.Sound live)
    (hc : c.Twin ρ c') : (b.put i c).Twins ρ live (b'.put i c') where
  size := by rw [size_put, size_put]; exact h.size
  reach := by rw [reach_put, reach_put]; exact h.reach
  fits := by rw [reach_put, size_put]; exact h.fits
  names := by rw [fresh_put, fresh_put]; exact h.names
  sound j := by
    rw [cellAt_put hi]
    split
    · exact hs
    · split
      · exact (h.sound j).seeing c
      · exact h.sound j
  cells j := by
    rw [cellAt_put hi, cellAt_put (h.size ▸ hi), hc.strings.overwrites h.names (h.cells i).strings]
    split
    · exact hc
    · split
      · exact hc.seeing h.names (h.cells j)
      · exact h.cells j

theorem Twins.renewed (h : b.Twins ρ live b') :
    b.renewed.Twins (ρ.add b.fresh b'.fresh) (fun x => live x ∨ x = b.fresh) b'.renewed where
  size := h.size
  reach := h.reach
  fits := h.fits
  names := h.names.add
  sound j := by
    apply (h.sound j).add
    intro hown
    rcases rel_cases (h.cells j).own with ⟨ho, _⟩ | ⟨x, x', ho, _, hx⟩
    · rw [ho] at hown
      cases hown
    · rw [ho] at hown
      cases hown
      exact absurd (h.names.lt hx).1 (Nat.lt_irrefl _)
  cells j := (h.cells j).mono fun _ _ hx => .inl hx

theorem Twins.renewed_right (h : b.Twins ρ live b') : b.Twins ρ live b'.renewed where
  size := h.size
  reach := h.reach
  fits := h.fits
  names := h.names.mono (Nat.le_refl _) (Nat.le_succ _)
  sound := h.sound
  cells := h.cells

theorem Twins.knowing (h : b.Twins ρ live b') (s s' : Sheet) (l l' : Ledger) :
    (b.knowing s l).Twins ρ live (b'.knowing s' l') :=
  ⟨h.size, h.reach, h.fits, h.names, h.sound, h.cells⟩

end Bank

end QueryMachine
