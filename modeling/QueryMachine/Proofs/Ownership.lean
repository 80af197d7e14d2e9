import Mathlib
import QueryMachine.Proofs.Affinities
import QueryMachine.Proofs.Frames

/-!
Who owns the string of a register. A string lies in the own buffer of the register, is to be given back, or is
borrowed for a while or for good. The rules by which registers change keep it so that exactly one of these holds,
with a few exceptions, which are named.
-/

namespace QueryMachine

/-- What of a register says where its string is kept. -/
structure Shape where
  flags : Flags
  size : Nat
  /-- The buffer with the string. -/
  place : Option Nat
  own : Option Nat
  room : Nat
  deriving DecidableEq

def Cell.shape (c : Cell) : Shape := ⟨c.flags, c.size, c.data.map (·.name), c.own, c.room⟩

/-- Marks that may stand in the place of others: they ask for nothing more to be given back, name no two kinds of
number, and keep a string as it was kept. -/
structure Flags.Milder (f g : Flags) : Prop where
  dyn : g.dyn = true → f.dyn = true
  number : (g.int && g.real) = false
  owned : g.textual = true → f.textual = true ∧ g.dyn = f.dyn ∧ g.ephem = f.ephem ∧ g.static = f.static

@[simp] theorem Cell.flags_shape (c : Cell) : c.shape.flags = c.flags := rfl

namespace Shape

def withFlags (s : Shape) (f : Flags) : Shape := { s with flags := f }

def isOwner (s : Shape) : Bool := s.room != 0 && s.place == s.own

/-- The ways in which the string is kept. -/
def owners (s : Shape) : List Bool := [s.isOwner, s.flags.dyn, s.flags.ephem, s.flags.static]

@[simp] theorem flags_withFlags (s : Shape) (f : Flags) : (s.withFlags f).flags = f := rfl

@[simp] theorem own_withFlags (s : Shape) (f : Flags) : (s.withFlags f).own = s.own := rfl

@[simp] theorem isOwner_withFlags (s : Shape) (f : Flags) : (s.withFlags f).isOwner = s.isOwner := rfl

/-- A buffer has a name, what is to be given back is not in it, no number is of two kinds, and each string is kept in
exactly one way. -/
structure Tidy (s : Shape) : Prop where
  named : s.room ≠ 0 → s.own.isSome = true
  foreign : s.flags.dyn = true → s.room = 0
  number : (s.flags.int && s.flags.real) = false
  owned : s.flags.textual = true → 0 < s.size → s.owners.count true = 1

instance (s : Shape) : Decidable s.Tidy :=
  decidable_of_iff (_ ∧ _ ∧ _ ∧ _)
    ⟨fun ⟨hnamed, hforeign, hnumber, howned⟩ => ⟨hnamed, hforeign, hnumber, howned⟩,
      fun h => ⟨h.named, h.foreign, h.number, h.owned⟩⟩

theorem Tidy.withFlags {s : Shape} (h : s.Tidy) {g : Flags} (hg : s.flags.Milder g) : (s.withFlags g).Tidy where
  named := h.named
  foreign hdyn := h.foreign (hg.dyn hdyn)
  number := hg.number
  owned htext hsize := by
    obtain ⟨htextual, hdyn, hephem, hstatic⟩ := hg.owned htext
    have howned := h.owned htextual hsize
    rw [owners] at howned ⊢
    rw [isOwner_withFlags, flags_withFlags, hdyn, hephem, hstatic]
    exact howned

theorem Tidy.plain {s : Shape} (h : s.Tidy) {f : Flags} (hdyn : f.dyn = false) (hnumber : (f.int && f.real) = false)
    (htextual : f.textual = false) : (s.withFlags f).Tidy := by
  refine h.withFlags ⟨fun hd => ?_, hnumber, fun ht => ?_⟩
  · rw [hdyn] at hd
    cases hd
  · rw [htextual] at ht
    cases ht

/-- Nothing hangs on it from outside any more. -/
def freed (s : Shape) : Shape := if s.flags.dynamic then s.withFlags .onlyNull else s

/-- The string and the own buffer are given back, but not the room. -/
def emptied (s : Shape) : Shape := { s with place := none, own := if s.room != 0 then none else s.own }

def released (s : Shape) : Shape := if s.room != 0 then s.freed.emptied else s.freed

theorem freed_of_not_dynamic {s : Shape} (h : s.flags.dynamic = false) : s.freed = s := by
  rw [freed, h, if_neg Bool.false_ne_true]

theorem dynamic_freed (s : Shape) : s.freed.flags.dynamic = false := by
  rw [freed]
  split
  · rfl
  · exact Bool.eq_false_of_not_eq_true ‹_›

theorem room_freed (s : Shape) : s.freed.room = s.room := by
  rw [freed]
  split <;> rfl

theorem own_freed (s : Shape) : s.freed.own = s.own := by
  rw [freed]
  split <;> rfl

theorem room_released (s : Shape) : s.released.room = s.room := by
  rw [released]
  split <;> exact s.room_freed

theorem Tidy.freed {s : Shape} (h : s.Tidy) : s.freed.Tidy := by
  rw [Shape.freed]
  split
  · exact h.plain rfl rfl rfl
  · exact h

/-- The own buffer is given back, and if there was room in it there still is said to be. -/
theorem tidy_emptied_iff {s : Shape} (h : s.Tidy) : s.emptied.Tidy ↔ s.room = 0 := by
  refine ⟨fun ht => ?_, fun hroom => ⟨fun hr => absurd hroom hr, fun _ => hroom, h.number, fun htext hsize => ?_⟩⟩
  · by_contra hroom
    have := ht.named hroom
    simp [emptied, hroom] at this
  · have howned := h.owned htext hsize
    have hno : s.isOwner = false := by rw [isOwner, hroom]; rfl
    have hno' : s.emptied.isOwner = false := by rw [isOwner, show s.emptied.room = 0 from hroom]; rfl
    rw [owners, hno] at howned
    rw [owners, hno']
    exact howned

theorem tidy_released_iff {s : Shape} (h : s.Tidy) : s.released.Tidy ↔ s.room = 0 := by
  rw [released]
  split
  · rw [tidy_emptied_iff h.freed, room_freed]
  · rename_i hroom
    exact iff_of_true h.freed (by simpa using hroom)

/-- A register is released to become one of another kind. -/
def claimed (s : Shape) (kind : Flags) : Shape := if s.flags = kind then s else s.released.withFlags kind

theorem tidy_claimed_iff {s : Shape} (h : s.Tidy) {kind : Flags} (hdyn : kind.dyn = false)
    (hnumber : (kind.int && kind.real) = false) (htextual : kind.textual = false) :
    (s.claimed kind).Tidy ↔ ¬ (s.flags ≠ kind ∧ s.room ≠ 0) := by
  rw [claimed]
  by_cases hkind : s.flags = kind
  · rw [if_pos hkind]
    exact iff_of_true h fun hb => hb.1 hkind
  · rw [if_neg hkind, and_iff_right hkind, not_not]
    refine ⟨fun ht => ?_, fun hroom => ((tidy_released_iff h).mpr hroom).plain hdyn hnumber htextual⟩
    by_contra hroom
    have hown := ht.named (show s.released.room ≠ 0 by rwa [room_released])
    rw [own_withFlags, released, if_pos (by simpa using hroom)] at hown
    simp [emptied, room_freed, hroom] at hown

/-- The string of another register is borrowed. -/
def lent (s d : Shape) (loan : Cell.Loan) : Shape := ⟨loan.mark d.flags, d.size, d.place, s.own, s.room⟩

theorem mark_textual (loan : Cell.Loan) (f : Flags) : (loan.mark f).textual = f.textual := by
  rw [Cell.Loan.mark]
  split <;> rfl

theorem mark_number (loan : Cell.Loan) (f : Flags) : ((loan.mark f).int && (loan.mark f).real) = (f.int && f.real) := by
  rw [Cell.Loan.mark]
  split <;> rfl

theorem mark_dyn (loan : Cell.Loan) (f : Flags) : (loan.mark f).dyn = (f.dyn && f.static) := by
  rw [Cell.Loan.mark]
  cases f.static with
  | true => rw [if_pos rfl, Bool.and_true]
  | false => rw [if_neg Bool.false_ne_true, Bool.and_false]

/-- What is borrowed is marked once, and so must not lie in the own buffer. -/
theorem tidy_lent_iff {s d : Shape} (hs : s.Tidy) (hd : d.Tidy) (loan : Cell.Loan) :
    (s.lent d loan).Tidy ↔ ¬ (s.room ≠ 0 ∧ (d.flags.textual = true ∧ 0 < d.size ∧ d.place = s.own ∨
      d.flags.dyn = true ∧ d.flags.static = true)) := by
  have hcount (htext : d.flags.textual = true) (hsize : 0 < d.size) :
      (s.lent d loan).owners.count true = (if s.room ≠ 0 ∧ d.place = s.own then 1 else 0) + 1 := by
    have howned := hd.owned htext hsize
    have howner : (s.lent d loan).isOwner = decide (s.room ≠ 0 ∧ d.place = s.own) := by
      rw [Bool.eq_iff_iff, isOwner, Bool.and_eq_true, bne_iff_ne, beq_iff_eq, decide_eq_true_iff]
      rfl
    rw [owners] at howned ⊢
    rw [howner]
    show List.count true [_, (loan.mark d.flags).dyn, (loan.mark d.flags).ephem, (loan.mark d.flags).static] = _
    rw [Cell.Loan.mark]
    cases hstatic : d.flags.static with
    | true =>
      rw [hstatic] at howned
      rw [if_pos rfl, hstatic]
      cases hdyn : d.flags.dyn <;> cases hephem : d.flags.ephem <;> cases hown : d.isOwner <;>
        simp [hdyn, hephem, hown] at howned
      by_cases hplace : s.room ≠ 0 ∧ d.place = s.own <;> simp [hplace]
    | false =>
      rw [if_neg Bool.false_ne_true]
      cases loan <;> by_cases hplace : s.room ≠ 0 ∧ d.place = s.own <;> simp [hplace]
  constructor
  · rintro ht ⟨hroom, ⟨htext, hsize, hplace⟩ | ⟨hdyn, hstatic⟩⟩
    · have howned := ht.owned ((mark_textual loan _).trans htext) hsize
      rw [hcount htext hsize, if_pos ⟨hroom, hplace⟩] at howned
      cases howned
    · refine hroom (ht.foreign ?_)
      exact (mark_dyn loan _).trans (by rw [hdyn, hstatic]; rfl)
  · intro hb
    refine ⟨hs.named, fun hdyn => ?_, (mark_number loan _).trans hd.number, fun htext hsize => ?_⟩
    · have hdyn : (d.flags.dyn && d.flags.static) = true := (mark_dyn loan _).symm.trans hdyn
      rw [Bool.and_eq_true] at hdyn
      by_contra hroom
      exact hb ⟨hroom, .inr hdyn⟩
    · have htext : d.flags.textual = true := (mark_textual loan _).symm.trans htext
      rw [hcount htext hsize, if_neg]
      rintro ⟨hroom, hplace⟩
      exact hb ⟨hroom, .inl ⟨htext, hsize, hplace⟩⟩

end Shape

theorem Cell.shape_seeing (c d : Cell) : (c.seeing d).shape = d.shape := by
  rw [seeing]
  split
  · split
    · rename_i hd _
      rw [shape, shape, hd]
      rfl
    · rfl
  · rfl

namespace Cell

/-- The string and the own buffer are given back, but not the room. -/
def emptied (c : Cell) : Cell := { c with own := if c.room != 0 then none else c.own, data := none }

theorem shape_released (c : Cell) : c.released.shape = c.shape.freed := by
  rw [released, Shape.freed, flags_shape]
  split <;> rfl

theorem dynamic_released (c : Cell) : c.released.flags.dynamic = false := by
  rw [← flags_shape, shape_released, Shape.dynamic_freed]

theorem room_released (c : Cell) : c.released.room = c.room := by
  rw [released]
  split <;> rfl

theorem shape_release (c : Cell) : (if c.room != 0 then c.released.emptied else c.released).shape = c.shape.released := by
  rw [Shape.released, ← shape_released]
  show _ = if c.room != 0 then _ else _
  split <;> rfl

/-- The string lies in the own buffer, and nothing else is said about it. -/
structure Houses (c : Cell) : Prop where
  room : c.room ≠ 0
  own : c.own.isSome = true
  place : c.data.map (·.name) = c.own
  dyn : c.flags.dyn = false
  ephem : c.flags.ephem = false
  static : c.flags.static = false

variable {c d : Cell}

theorem Houses.tidy (h : c.Houses) (hnumber : (c.flags.int && c.flags.real) = false) : c.shape.Tidy where
  named _ := h.own
  foreign hdyn := absurd hdyn (by rw [show c.shape.flags.dyn = false from h.dyn]; exact Bool.false_ne_true)
  number := hnumber
  owned _ _ := by
    have howner : c.shape.isOwner = true := by
      rw [Shape.isOwner, Bool.and_eq_true, bne_iff_ne, beq_iff_eq]
      exact ⟨h.room, h.place⟩
    rw [Shape.owners, howner, show c.shape.flags = c.flags from rfl, h.dyn, h.ephem, h.static]
    rfl

theorem Houses.of_parts (h : c.Houses) (hroom : d.room = c.room) (hown : d.own = c.own)
    (hplace : d.data.map (·.name) = c.data.map (·.name)) (hdyn : d.flags.dyn = false) (hephem : d.flags.ephem = false)
    (hstatic : d.flags.static = false) : d.Houses :=
  ⟨hroom ▸ h.room, hown ▸ h.own, by rw [hplace, hown, h.place], hdyn, hephem, hstatic⟩

theorem houses_grow (name : Nat) {n : Nat} (hn : n ≠ 0 ∨ c.own = none ∨ c.room ≠ 0) (preserve : Bool) :
    (c.grow name n preserve).Houses := by
  rw [grow]
  cases hown : c.own with
  | none => exact ⟨(capacity_pos n).ne', rfl, rfl, rfl, rfl, rfl⟩
  | some own =>
    dsimp only
    split
    · exact ⟨(capacity_pos n).ne', rfl, rfl, rfl, rfl, rfl⟩
    · have hroom : c.room ≠ 0 := by
        rw [hown] at hn
        simp only [reduceCtorEq, false_or] at hn
        omega
      exact ⟨hroom, rfl, rfl, rfl, rfl, rfl⟩

theorem houses_clearAndResize (name : Nat) {n : Nat} (hn : n ≠ 0) (c : Cell) : (c.clearAndResize name n).Houses := by
  have hgrow : (c.grow name n false).Houses := houses_grow name (.inl hn) false
  rw [clearAndResize]
  split
  · exact hgrow
  · exact hgrow.of_parts rfl rfl rfl rfl rfl rfl

theorem size_grow (name n : Nat) (preserve : Bool) (c : Cell) : (c.grow name n preserve).size = c.size := by
  rw [grow]
  split
  · split <;> rfl
  · rfl

theorem number_grow (name n : Nat) (preserve : Bool) (c : Cell) :
    (c.grow name n preserve).flags.int = c.flags.int ∧ (c.grow name n preserve).flags.real = c.flags.real := by
  rw [flags_grow]
  exact ⟨rfl, rfl⟩

theorem number_clearAndResize (name n : Nat) (c : Cell) :
    (c.clearAndResize name n).flags.int = c.flags.int ∧ (c.clearAndResize name n).flags.real = c.flags.real := by
  rw [clearAndResize]
  split
  · exact c.number_grow name n false
  · exact ⟨rfl, rfl⟩

/-- An own buffer without room is taken for one that holds the string, if no more room is asked for. -/
theorem tidy_grow_iff (name n : Nat) (preserve : Bool) (h : c.shape.Tidy) :
    (c.grow name n preserve).shape.Tidy ↔
      ¬ (n = 0 ∧ c.own.isSome = true ∧ c.room = 0 ∧ c.flags.textual = true ∧ 0 < c.size) := by
  obtain ⟨hint, hreal⟩ := c.number_grow name n preserve
  have hnumber : ((c.grow name n preserve).flags.int && (c.grow name n preserve).flags.real) = false := by
    rw [hint, hreal]
    exact h.number
  by_cases hn : n ≠ 0 ∨ c.own = none ∨ c.room ≠ 0
  · refine iff_of_true ((houses_grow name hn preserve).tidy hnumber) ?_
    rintro ⟨hzero, hown, hroom, -⟩
    obtain hn | hn | hn := hn
    · exact hn hzero
    · rw [hn] at hown
      cases hown
    · exact hn hroom
  · simp only [ne_eq, not_or, not_not] at hn
    obtain ⟨rfl, hown, hroom⟩ := hn
    obtain ⟨own, hown⟩ := Option.ne_none_iff_exists'.mp hown
    have hgrow : (c.grow name 0 preserve).shape = ⟨{ c.flags with dyn := false, ephem := false, static := false },
        c.size, some own, some own, 0⟩ := by
      rw [grow, hown]
      dsimp only
      rw [if_neg (Nat.not_lt_zero _), shape, hroom]
      rfl
    rw [hgrow, hown, hroom]
    constructor
    · rintro ht ⟨-, -, -, htext, hsize⟩
      cases ht.owned htext hsize
    · intro hb
      refine ⟨fun hr => absurd rfl hr, fun _ => rfl, h.number, fun htext hsize => ?_⟩
      exact absurd ⟨rfl, rfl, rfl, htext, hsize⟩ hb

theorem tidy_stringify (name : Nat) (force : Bool) (h : c.shape.Tidy) : (c.stringify name force).shape.Tidy := by
  have hresize := houses_clearAndResize name (show 32 ≠ 0 by decide) c
  obtain ⟨hint, hreal⟩ := c.number_clearAndResize name 32
  refine Houses.tidy (hresize.of_parts rfl rfl ?_ hresize.dyn hresize.ephem hresize.static) ?_
  · rw [stringify]
    dsimp only
    rw [Option.map_map]
    rfl
  · rw [stringify]
    dsimp only
    rw [hint, hreal]
    have hnumber : (c.flags.int && c.flags.real) = false := h.number
    cases force with
    | true => rw [Bool.not_true, Bool.and_false, Bool.false_and]
    | false => rwa [Bool.not_false, Bool.and_true, Bool.and_true]

theorem houses_expandBlob (name : Nat) (hzero : c.flags.zero = true) : (c.expandBlob name).Houses := by
  have hgrow : (c.grow name (max 1 (c.size + c.zeros.toNat)) true).Houses := houses_grow name (.inl (by omega)) true
  rw [expandBlob, if_pos hzero]
  refine hgrow.of_parts rfl rfl ?_ hgrow.dyn hgrow.ephem hgrow.static
  rw [Option.map_map]
  rfl

theorem tidy_expandBlob (name : Nat) (h : c.shape.Tidy) : (c.expandBlob name).shape.Tidy := by
  cases hzero : c.flags.zero with
  | true =>
    refine (houses_expandBlob name hzero).tidy ?_
    obtain ⟨hint, hreal⟩ := c.number_grow name (max 1 (c.size + c.zeros.toNat)) true
    rw [expandBlob, if_pos hzero]
    show (_ && _) = false
    rw [hint, hreal]
    exact h.number
  | false =>
    rw [expandBlob, hzero, if_neg Bool.false_ne_true]
    exact h

theorem houses_addTerminator (name : Nat) (c : Cell) : (c.addTerminator name).Houses := by
  have hgrow : (c.grow name (c.size + 2) true).Houses := houses_grow name (.inl (by omega)) true
  exact hgrow.of_parts rfl rfl rfl hgrow.dyn hgrow.ephem hgrow.static

theorem tidy_addTerminator (name : Nat) (h : c.shape.Tidy) : (c.addTerminator name).shape.Tidy := by
  refine (houses_addTerminator name c).tidy ?_
  obtain ⟨hint, hreal⟩ := c.number_grow name (c.size + 2) true
  rw [addTerminator]
  dsimp only
  rw [hint, hreal]
  exact h.number

theorem tidy_nulTerminate (name : Nat) (h : c.shape.Tidy) : (c.nulTerminate name).shape.Tidy := by
  rw [nulTerminate]
  split
  · exact tidy_addTerminator name h
  · exact h

theorem tidy_setBytes (name : Nat) (bytes : Bytes) (c : Cell) : (c.setBytes name .onlyStr bytes).shape.Tidy := by
  have hresize := houses_clearAndResize name (show max 32 bytes.length ≠ 0 by omega) c
  refine Houses.tidy (hresize.of_parts rfl rfl ?_ rfl rfl rfl) rfl
  rw [setBytes, fill]
  dsimp only
  rw [Option.map_map]
  rfl

theorem tidy_valueText (name : Nat) (h : c.shape.Tidy) : (c.valueText name).2.shape.Tidy := by
  rw [valueText]
  split
  · exact h
  split
  · exact h
  dsimp only
  split
  · rename_i htext
    refine tidy_nulTerminate name (tidy_expandBlob name ?_)
    exact h.withFlags ⟨id, h.number, fun _ => ⟨htext, rfl, rfl, rfl⟩⟩
  · exact tidy_stringify name false h

/-- A borrowed string that is copied to the own buffer, though the register goes on to say that it is borrowed. -/
def Doubles (c : Cell) : Prop :=
  c.flags.rowSet = false ∧ c.flags.zero = false ∧ c.flags.textual = true ∧ c.isOwner = false ∧
    (0 < c.size ∨ c.flags.dyn = true)

theorem tidy_addTerminator_iff (name : Nat) (h : c.shape.Tidy) (htext : c.flags.textual = true)
    (hplace : c.isOwner = false) : ((c.addTerminator name).shape.withFlags { c.flags with term := true }).Tidy ↔
      ¬ (0 < c.size ∨ c.flags.dyn = true) := by
  have hhouses := houses_addTerminator name c
  have hsize : (c.addTerminator name).size = c.size := size_grow name _ true c
  have howner (f : Flags) : ((c.addTerminator name).shape.withFlags f).isOwner = true := by
    rw [Shape.isOwner_withFlags, Shape.isOwner, Bool.and_eq_true, bne_iff_ne, beq_iff_eq]
    exact ⟨hhouses.room, hhouses.place⟩
  have hno : c.shape.isOwner = false := by
    rw [Shape.isOwner, show (c.shape.place == c.shape.own) = false from hplace, Bool.and_false]
  constructor
  · rintro ht (hpos | hdyn)
    · have hbefore := h.owned htext hpos
      have hafter := ht.owned htext (show 0 < (c.addTerminator name).size by rwa [hsize])
      rw [Shape.owners, hno] at hbefore
      rw [Shape.owners, howner] at hafter
      rw [List.count_cons_of_ne Bool.false_ne_true] at hbefore
      rw [List.count_cons_self] at hafter
      exact Nat.succ_ne_self 1 ((congrArg (· + 1) hbefore).symm.trans hafter)
    · exact hhouses.room (ht.foreign hdyn)
  · intro hb
    rw [not_or] at hb
    refine ⟨fun _ => hhouses.own, fun hdyn => absurd hdyn hb.2, h.number, fun _ hpos => absurd ?_ hb.1⟩
    rw [← hsize]
    exact hpos

/-- The string that is borrowed from another register lies in the own buffer, or is to be given back. -/
def Clashes (c d : Cell) : Prop :=
  (d.flags.rowSet = false ∧ d.flags.agg = false ∧ d.flags.frame = false) ∧ c.room ≠ 0 ∧
    (d.flags.textual = true ∧ 0 < d.size ∧ d.data.map (·.name) = c.own ∨ d.flags.dyn = true ∧ d.flags.static = true)

/-- A text is read as a number of one kind while it is one of the other. -/
def Blurs (c : Cell) (tryInt : Bool) : Prop :=
  c.readReal.whole = true ∧ if c.readInt.fit = .exact then c.flags.real = true
    else c.flags.int = true ∧ (tryInt = true → c.readReal.value.whole? = none)

theorem tidy_applyNumericAffinity_iff (tryInt : Bool) (h : c.shape.Tidy) :
    (c.applyNumericAffinity tryInt).shape.Tidy ↔ ¬ c.Blurs tryInt := by
  -- only the number may be amiss
  have hmarks {g : Flags} (hg : (g.int && g.real) = false ↔ ¬ c.Blurs tryInt) (htext : g.textual = c.flags.textual)
      (hdyn : g.dyn = c.flags.dyn) (hephem : g.ephem = c.flags.ephem) (hstatic : g.static = c.flags.static) :
      (c.shape.withFlags g).Tidy ↔ ¬ c.Blurs tryInt :=
    ⟨fun ht => hg.mp ht.number, fun hb =>
      h.withFlags ⟨fun hd => hdyn ▸ hd, hg.mpr hb, fun ht => ⟨htext ▸ ht, hdyn, hephem, hstatic⟩⟩⟩
  rw [applyNumericAffinity]
  dsimp only
  by_cases hwhole : c.readReal.whole = true
  · rw [if_pos hwhole]
    by_cases hexact : c.readInt.fit = .exact
    · rw [if_pos hexact]
      refine hmarks (g := { c.flags with int := true }) ?_ rfl rfl rfl rfl
      rw [Blurs, if_pos hexact, and_iff_right hwhole, Bool.true_and, Bool.not_eq_true]
    · rw [if_neg hexact]
      have hleft : (tryInt = true → c.readReal.value.whole? = none) →
          ((c.shape.withFlags { c.flags with real := true }).Tidy ↔ ¬ c.Blurs tryInt) := by
        intro hnone
        refine hmarks ?_ rfl rfl rfl rfl
        rw [Blurs, if_neg hexact, and_iff_right hwhole, and_iff_left hnone, Bool.and_true, Bool.not_eq_true]
      cases tryInt with
      | false => exact hleft fun ht => absurd ht Bool.false_ne_true
      | true =>
        rw [if_pos rfl, integerAffinity_eq, wholeOrSelf]
        show (Cell.shape ((c.readReal.value.whole?.map _).getD _)).Tidy ↔ _
        cases hvalue : c.readReal.value.whole? with
        | none => exact hleft fun _ => hvalue
        | some m =>
          refine ⟨fun _ hb => ?_, fun _ => ?_⟩
          · rw [Blurs, if_neg hexact, hvalue] at hb
            cases hb.2.2 rfl
          · refine h.withFlags (g := ({ c.flags with real := true } : Flags).retype .onlyInt)
              ⟨fun hd => ?_, rfl, fun ht => by cases ht⟩
            simpa [Flags.retype, Flags.union, Flags.storage, Flags.onlyInt] using hd
  · rw [if_neg hwhole]
    exact ⟨fun _ hb => hwhole hb.1, fun _ => h⟩

theorem not_blurs (h : c.flags.numeric = false) (tryInt : Bool) : ¬ c.Blurs tryInt := by
  rw [Flags.numeric, Bool.or_eq_false_iff] at h
  rintro ⟨-, hb⟩
  rw [h.1, h.2] at hb
  split at hb
  · cases hb
  · cases hb.1

end Cell

namespace Fact

/-- The marks that are known are true, and the integers that are known fit. -/
def Tame (f : Fact) (c : Cell) : Prop := f.Honest c ∧ ∀ n, f.int? = some n → fitsWord n = true

theorem law_tame : Law Tame :=
  law_honest.known (Q := fun o _ => ∀ n, o = some n → fitsWord n = true) fun _ h => by cases h

theorem Tame.noteFlags {f : Fact} {c : Cell} (h : f.Tame c) (g : Flags) : (f.noteFlags g).Tame (c.withFlags g) :=
  ⟨fun g' hg' => by simpa [Fact.noteFlags, flags?, Cell.withFlags, eq_comm] using hg', h.2⟩

theorem Tame.dropInt {f : Fact} {c : Cell} (h : f.Tame c) (w : UInt64) : f.dropInt.Tame (c.withPayload w) :=
  ⟨h.1, by simp [Fact.dropInt, int?, isConstantInt]⟩

theorem Tame.noteInt {f : Fact} {c : Cell} (h : f.Tame c) (w : UInt64) {n : Int} (hn : fitsWord n = true) :
    (f.noteInt n).Tame (c.withPayload w) := by
  refine ⟨h.1, fun m hm => ?_⟩
  simp only [Fact.noteInt, int?, isConstantInt, Bool.and_true, if_true, Option.some.injEq] at hm
  exact hm ▸ hn

theorem Tame.dropReal {f : Fact} {c : Cell} (h : f.Tame c) (w : UInt64) : f.dropReal.Tame (c.withPayload w) := by
  refine ⟨h.1, fun m hm => ?_⟩
  rw [int?] at hm
  split at hm
  · rename_i hc
    simp [Fact.dropReal, isConstantInt] at hc
  · split at hm
    · cases hm
      rfl
    · cases hm

end Fact

namespace Bank

/-- What is known about the registers, if anything is noted at all, is true of their marks. -/
structure Frank (b : Bank) : Prop where
  reach : b.reach ≤ b.cells.size
  known : b.indexed = true → b.Obeys Fact.Tame

/-- The registers hold what they held before. -/
structure Echoes (b b' : Bank) : Prop where
  cells : b'.cells = b.cells
  reach : b'.reach = b.reach
  frank : b'.Frank

/-- One register holds `c` now, and the others hold what they held before. -/
structure Rewrites (b : Bank) (r : Nat) (c : Cell) (b' : Bank) : Prop where
  cellAt : ∀ j, b'.cellAt j = if r = j then c else b.cellAt j
  reach : b'.reach = b.reach
  frank : b'.Frank

structure Reshaped (b : Bank) (r : Nat) (s : Shape) (b' : Bank) : Prop where
  self : (b'.cellAt r).shape = s
  other : ∀ j, j ≠ r → (b'.cellAt j).shape = (b.cellAt j).shape
  reach : b'.reach = b.reach
  frank : b'.Frank

variable {b b' b'' : Bank} {r : Nat} {c c' : Cell} {s s' : Shape}

theorem Echoes.cellAt (h : b.Echoes b') (j : Nat) : b'.cellAt j = b.cellAt j := by
  rw [Bank.cellAt, Bank.cellAt, h.cells]

theorem Frank.echoes (h : b.Frank) : b.Echoes b := ⟨rfl, rfl, h⟩

theorem Echoes.trans (h : b.Echoes b') (h' : b'.Echoes b'') : b.Echoes b'' :=
  ⟨h'.cells.trans h.cells, h'.reach.trans h.reach, h'.frank⟩

theorem Echoes.rewrites (h : b.Echoes b') (r : Nat) : b.Rewrites r (b.cellAt r) b' where
  cellAt j := by
    rw [h.cellAt]
    split
    · rename_i hj
      rw [hj]
    · rfl
  reach := h.reach
  frank := h.frank

theorem Rewrites.self (h : b.Rewrites r c b') : b'.cellAt r = c := by rw [h.cellAt, if_pos rfl]

theorem Rewrites.trans (h : b.Rewrites r c b') (h' : b'.Rewrites r c' b'') : b.Rewrites r c' b'' where
  cellAt j := by
    rw [h'.cellAt, h.cellAt]
    split <;> rfl
  reach := h'.reach.trans h.reach
  frank := h'.frank

theorem Rewrites.reshaped (h : b.Rewrites r c b') : b.Reshaped r c.shape b' where
  self := by rw [h.self]
  other j hj := by rw [h.cellAt, if_neg (Ne.symm hj)]
  reach := h.reach
  frank := h.frank

theorem Echoes.reshaped (h : b.Echoes b') (r : Nat) : b.Reshaped r (b.cellAt r).shape b' := (h.rewrites r).reshaped

theorem Reshaped.trans (h : b.Reshaped r s b') (h' : b'.Reshaped r s' b'') : b.Reshaped r s' b'' where
  self := h'.self
  other j hj := (h'.other j hj).trans (h.other j hj)
  reach := h'.reach.trans h.reach
  frank := h'.frank

theorem Reshaped.shape (h : b.Reshaped r s b') (j : Nat) :
    (b'.cellAt j).shape = if j = r then s else (b.cellAt j).shape := by
  split
  · rename_i hj
    rw [hj, h.self]
  · exact h.other j ‹_›

theorem Echoes.reshaped_trans (h : b.Echoes b') (h' : b'.Reshaped r s b'') : b.Reshaped r s b'' :=
  (h.reshaped r).trans h'

namespace Frank

theorem lt_size (h : b.Frank) (hr : r < b.reach) : r < b.cells.size := Nat.lt_of_lt_of_le hr h.reach

theorem of_obeys (h : b.Obeys Fact.Tame) : b.Frank := ⟨h.reach, fun _ => h⟩

theorem of_not_indexed (hi : b.indexed = false) (h : b.reach ≤ b.cells.size) : b.Frank :=
  ⟨h, fun hindexed => by rw [hi] at hindexed; cases hindexed⟩

theorem withCell_of_not_indexed (h : b.Frank) (hi : b.indexed = false) (r : Nat) (c : Cell) : (b.withCell r c).Frank :=
  of_not_indexed hi (by rw [size_withCell]; exact h.reach)

theorem echoes_knowing {t : Sheet} {l : Ledger} (h : (b.knowing t l).Obeys Fact.Tame) : b.Echoes (b.knowing t l) :=
  ⟨rfl, rfl, of_obeys h⟩

theorem flags_run (h : b.Frank) (hr : r < b.reach) :
    ∃ b', flags r b = .ok (b.cellAt r).flags b' ∧ b.Echoes b' := by
  cases hi : b.indexed with
  | true =>
    obtain ⟨t, l, hrun, hobeys⟩ := (h.known hi).flags_run Fact.law_tame hr
    exact ⟨_, hrun, echoes_knowing hobeys⟩
  | false =>
    exact ⟨b, flags_unindexed hi r, h.echoes⟩

theorem rewrites_withCell (h : b.Frank) (hr : r < b.reach) (c : Cell) (hcells : b'.cells = (b.withCell r c).cells)
    (hreach : b'.reach = b.reach) (hfrank : b'.Frank) : b.Rewrites r c b' where
  cellAt j := by
    have hcell : b'.cellAt j = (b.withCell r c).cellAt j := by rw [Bank.cellAt, Bank.cellAt, hcells]
    rw [hcell, cellAt_withCell (h.lt_size hr)]
  reach := hreach
  frank := hfrank

theorem reshaped_withCell (h : b.Frank) (hr : r < b.reach) (c : Cell) (hcells : b'.cells = (b.withCell r c).cells)
    (hreach : b'.reach = b.reach) (hfrank : b'.Frank) : b.Reshaped r c.shape b' :=
  (h.rewrites_withCell hr c hcells hreach hfrank).reshaped

theorem setFlags_rewrites (h : b.Frank) (hr : r < b.reach) (g : Flags) :
    ∃ b', setFlags r g b = .ok () b' ∧ b.Rewrites r ((b.cellAt r).withFlags g) b' := by
  cases hi : b.indexed with
  | true =>
    obtain ⟨t, l, hrun, hobeys⟩ := (h.known hi).setFlags_run Fact.law_tame hr g fun f hf => hf.noteFlags g
    exact ⟨_, hrun, h.rewrites_withCell hr _ rfl rfl (of_obeys hobeys)⟩
  | false => exact ⟨_, setFlags_unindexed hi r g, h.rewrites_withCell hr _ rfl rfl (h.withCell_of_not_indexed hi r _)⟩

theorem setFlags_run (h : b.Frank) (hr : r < b.reach) (g : Flags) :
    ∃ b', setFlags r g b = .ok () b' ∧ b.Reshaped r ((b.cellAt r).shape.withFlags g) b' := by
  obtain ⟨b', hrun, hb'⟩ := h.setFlags_rewrites hr g
  exact ⟨b', hrun, hb'.reshaped⟩

theorem setInt_run (h : b.Frank) (hr : r < b.reach) {n : Int} (hn : fitsWord n = true) (constant : Bool) :
    ∃ b', setInt r n constant b = .ok () b' ∧ b.Reshaped r (b.cellAt r).shape b' := by
  cases hi : b.indexed with
  | true =>
    obtain ⟨t, hk, hreach, ht⟩ := h.known hi
    obtain ⟨b', hrun, t', l, rfl, hk', hs⟩ := hk.setInt_run r hn constant
    have hheeds : ((b.withCell r ((b.cellAt r).withPayload (intToWord n))).knowing t' l).Obeys Fact.Tame := by
      refine Obeys.of_update (Heeds.of_noted (fun _ => Fact.law_tame) Fact.law_tame hk hreach ht hr hk' hs ?_ ?_)
      · cases constant <;> exact hk.plain.fact r
      · cases constant with
        | true => exact (ht r hr).noteInt _ hn
        | false => exact (ht r hr).dropInt _
    exact ⟨_, hrun, h.reshaped_withCell hr ((b.cellAt r).withPayload (intToWord n)) rfl rfl (of_obeys hheeds)⟩
  | false =>
    exact ⟨_, setInt_unindexed hi r hn constant,
      h.reshaped_withCell hr ((b.cellAt r).withPayload (intToWord n)) rfl rfl (h.withCell_of_not_indexed hi r _)⟩

theorem setReal_run (h : b.Frank) (hr : r < b.reach) (x : Number) :
    ∃ b', setReal r x false b = .ok () b' ∧ b.Reshaped r (b.cellAt r).shape b' := by
  cases hi : b.indexed with
  | true =>
    obtain ⟨t, hk, hreach, ht⟩ := h.known hi
    obtain ⟨b', hrun, t', l, rfl, hk', hs⟩ := hk.setReal_run r (x := x) (fun hc : false = true => by cases hc)
    have hheeds : ((b.withCell r ((b.cellAt r).withPayload x.toDouble.bits)).knowing t' l).Obeys Fact.Tame :=
      Obeys.of_update (Heeds.of_noted (fun _ => Fact.law_tame) Fact.law_tame hk hreach ht hr hk' hs (hk.plain.fact r)
        ((ht r hr).dropReal _))
    exact ⟨_, hrun, h.reshaped_withCell hr ((b.cellAt r).withPayload x.toDouble.bits) rfl rfl (of_obeys hheeds)⟩
  | false =>
    exact ⟨_, setReal_unindexed hi r x false,
      h.reshaped_withCell hr ((b.cellAt r).withPayload x.toDouble.bits) rfl rfl (h.withCell_of_not_indexed hi r _)⟩

theorem int_run (h : b.Frank) (hr : r < b.reach) : ∃ n, int r b = .ok n b ∧ fitsWord n = true := by
  cases hi : b.indexed with
  | true =>
    obtain ⟨t, hk, -, ht⟩ := h.known hi
    refine ⟨_, hk.int_run r, ?_⟩
    cases hn : (t.fact r).int? with
    | none => exact fitsWord_wordToInt _
    | some n => exact (ht r hr).2 n hn
  | false => exact ⟨_, int_unindexed hi r, fitsWord_wordToInt _⟩

theorem real_run (h : b.Frank) (r : Nat) : ∃ x, real r b = .ok x b := by
  cases hi : b.indexed with
  | true =>
    obtain ⟨t, hk, -⟩ := h.known hi
    exact ⟨_, hk.real_run r⟩
  | false => exact ⟨_, real_unindexed hi r⟩

theorem reshaped_put (h : b.Frank) (hr : r < b.reach) (c : Cell) (hcells : b'.cells = (b.put r c).cells)
    (hreach : b'.reach = b.reach) (hfrank : b'.Frank) : b.Reshaped r c.shape b' := by
  have hcell (j : Nat) : b'.cellAt j = (b.put r c).cellAt j := by rw [cellAt, cellAt, hcells]
  refine ⟨?_, fun j hj => ?_, hreach, hfrank⟩
  · rw [hcell, cellAt_put (h.lt_size hr), if_pos rfl]
  · rw [hcell, cellAt_put (h.lt_size hr), if_neg (Ne.symm hj)]
    split
    · exact Cell.shape_seeing c _
    · rfl

theorem direct_run (h : b.Frank) (hr : r < b.reach) (rule : Nat → Cell → Cell) :
    ∃ b', direct r rule b = .ok () b' ∧ b.Reshaped r (rule b.fresh (b.cellAt r)).shape b' := by
  have hput (c : Cell) : (b.renewed.put r c).cells = (b.put r c).cells := cells_put_congr (a := b.renewed) (d := b) rfl r c
  cases hi : b.indexed with
  | true =>
    obtain ⟨t, l, hrun, hobeys⟩ := (h.known hi).direct_run Fact.law_tame hr rule
    exact ⟨_, hrun, h.reshaped_put hr _ (hput _) (reach_put _ _ _) (of_obeys hobeys)⟩
  | false =>
    refine ⟨_, ?_, h.reshaped_put hr _ (hput _) (reach_put _ _ _) ?_⟩
    · exact (bind_of_ok (invalidate_unindexed hi r)).trans (modifyCellWith_run b r rule)
    · refine of_not_indexed ?_ ?_
      · rw [indexed_put]
        exact hi
      · rw [reach_put, size_put]
        exact h.reach

theorem withCell (h : b.Frank) (hr : r < b.reach) {c : Cell} (hflags : c.flags = (b.cellAt r).flags) :
    (b.withCell r c).Frank := by
  refine ⟨by rw [size_withCell]; exact h.reach, fun hi => ?_⟩
  obtain ⟨t, hk, hreach, ht⟩ := h.known hi
  refine ⟨t, hk.withCell r c, by rw [size_withCell]; exact hreach, fun j hj => ?_⟩
  rw [cellAt_withCell (h.lt_size hr)]
  split
  · rename_i hjr
    subst hjr
    exact ⟨fun g hg => hflags ▸ (ht r hj).1 g hg, (ht r hj).2⟩
  · exact ht j hj

/-- A register changes, and what was known about it is forgotten, so that it may change again. -/
theorem invalidate_run (h : b.Frank) (hr : r < b.reach) (c : Cell) :
    ∃ b', invalidate r (b.withCell r c) = .ok () b' ∧ b'.cells = (b.withCell r c).cells ∧ b'.reach = b.reach ∧
      b'.fresh = b.fresh ∧ ∀ d, (b'.withCell r d).Frank := by
  have hlt := h.lt_size hr
  cases hi : b.indexed with
  | true =>
    obtain ⟨t, hk, hreach, ht⟩ := h.known hi
    obtain ⟨b', hrun, t', l, rfl, hk', hs⟩ := (hk.withCell r c).invalidate_run r
    have hlt' : r < (b.withCell r c).cells.size := by rwa [size_withCell]
    have hfact := (hk.withCell r c).fact_noted hlt' hs
    refine ⟨_, hrun, rfl, rfl, rfl, fun d => of_obeys ⟨t', hk'.withCell r d, ?_, fun j hj => ?_⟩⟩
    · rw [size_withCell]
      show b.reach ≤ (b.withCell r c).cells.size
      rwa [size_withCell]
    · have hlike := hfact j
      by_cases hjr : r = j
      · refine Fact.law_tame.nothing ?_
        split at hlike
        · rw [hlike.known, Fact.forget_known]
        · rename_i hc
          rw [hlike.known, hk.fact_unused (by simpa [hjr] using hc)]
      · rw [if_neg (fun hc => hjr hc.1)] at hlike
        rw [cellAt_withCell (show r < ((b.withCell r c).knowing t' l).cells.size from hlt'), if_neg hjr, cellAt_knowing,
          cellAt_withCell hlt, if_neg hjr]
        exact Fact.law_tame.like (ht j hj) hlike (hk'.plain.fact j) (hk.plain.fact j)
  | false =>
    exact ⟨_, invalidate_unindexed (b := b.withCell r c) hi r, rfl, rfl, rfl,
      fun d => (h.withCell_of_not_indexed hi r c).withCell_of_not_indexed hi r d⟩

theorem forget_run (h : b.Frank) (hr : r < b.reach) :
    ∃ b', invalidate r b = .ok () b' ∧ b.Echoes b' ∧ ∀ c, (b'.withCell r c).Frank := by
  obtain ⟨b', hrun, hcells, hreach, -, hfrank⟩ := h.invalidate_run hr (b.cellAt r)
  rw [withCell_cellAt] at hrun hcells
  refine ⟨b', hrun, ⟨hcells, hreach, ?_⟩, hfrank⟩
  have := hfrank (b'.cellAt r)
  rwa [withCell_cellAt] at this

theorem isDynamic_run (h : b.Frank) (hr : r < b.reach) :
    ∃ b', isDynamic r b = .ok (b.cellAt r).flags.dynamic b' ∧ b.Echoes b' := by
  obtain ⟨b', hrun, hb'⟩ := h.flags_run hr
  exact ⟨b', bind_of_ok hrun, hb'⟩

theorem clearExtern_run (h : b.Frank) (hr : r < b.reach) :
    ∃ b', clearExtern r b = .ok () b' ∧ b.Rewrites r (b.cellAt r).clearExtern b' := by
  obtain ⟨b', hrun, hcells, hreach, -, hfrank⟩ := h.invalidate_run hr (b.cellAt r).clearExtern
  refine ⟨b', (bind_of_ok (modifyCell_run b r _)).trans hrun, h.rewrites_withCell hr _ hcells hreach ?_⟩
  have := hfrank (b'.cellAt r)
  rwa [withCell_cellAt] at this

theorem releaseExtern_run (h : b.Frank) (hr : r < b.reach) :
    ∃ b', releaseExtern r b = .ok () b' ∧ b.Rewrites r (b.cellAt r).released b' := by
  obtain ⟨b₁, hdynamic, h₁⟩ := h.isDynamic_run hr
  rw [releaseExtern, bind_of_ok hdynamic, Cell.released]
  cases (b.cellAt r).flags.dynamic with
  | true =>
    obtain ⟨b', hrun, hb'⟩ := h₁.frank.clearExtern_run (by rwa [h₁.reach])
    rw [h₁.cellAt] at hb'
    exact ⟨b', hrun, (h₁.rewrites r).trans hb'⟩
  | false => exact ⟨b₁, rfl, h₁.rewrites r⟩

theorem clearStorage_run (h : b.Frank) (hr : r < b.reach) :
    ∃ b', clearStorage r b = .ok () b' ∧ b.Rewrites r (b.cellAt r).released.emptied b' := by
  obtain ⟨b₁, hrun, h₁⟩ := h.releaseExtern_run hr
  have hr₁ : r < b₁.reach := by rwa [h₁.reach]
  refine ⟨_, (bind_of_ok hrun).trans (modifyCell_run b₁ r _), h₁.trans ?_⟩
  rw [← h₁.self]
  exact h₁.frank.rewrites_withCell hr₁ _ rfl rfl (h₁.frank.withCell hr₁ rfl)

theorem release_rewrites (h : b.Frank) (hr : r < b.reach) : ∃ b', release r b = .ok () b' ∧
    b.Rewrites r (if (b.cellAt r).room != 0 then (b.cellAt r).released.emptied else (b.cellAt r).released) b' := by
  obtain ⟨b₁, hrun, h₁⟩ := h.releaseExtern_run hr
  obtain ⟨b₂, hdynamic, h₂⟩ := h₁.frank.isDynamic_run (show r < b₁.reach by rwa [h₁.reach])
  have h₂ := h₁.trans (h₁.self ▸ h₂.rewrites r)
  rw [release, bind_of_ok hrun, bind_of_ok hdynamic, bind_of_ok (cell_run b₂ r), h₁.self, h₂.self, Cell.dynamic_released,
    Cell.room_released, Bool.false_or]
  cases (b.cellAt r).room != 0 with
  | true =>
    obtain ⟨b', hclear, h'⟩ := h₂.frank.clearStorage_run (show r < b₂.reach by rwa [h₂.reach])
    rw [h₂.self, Cell.released_released] at h'
    exact ⟨b', hclear, h₂.trans h'⟩
  | false => exact ⟨b₂, rfl, h₂⟩

theorem release_run (h : b.Frank) (hr : r < b.reach) :
    ∃ b', release r b = .ok () b' ∧ b.Reshaped r (b.cellAt r).shape.released b' := by
  obtain ⟨b', hrun, hb'⟩ := h.release_rewrites hr
  refine ⟨b', hrun, ?_⟩
  rw [← Cell.shape_release]
  exact hb'.reshaped

end Frank

/-- The strings of all registers are kept as they should be. -/
def Tidy (b : Bank) : Prop := ∀ j, (b.cellAt j).shape.Tidy

theorem Reshaped.tidy (h : b.Reshaped r s b') (hb : b.Tidy) (hs : s.Tidy) : b'.Tidy := by
  intro j
  rw [h.shape j]
  split
  · exact hs
  · exact hb j

/-- The frame of the rules that keep strings as they should be, in banks of `n` registers. -/
def tidying (n : Nat) : Frame Bank where
  rel b b' := b.Frank → b.reach = n → b'.Frank ∧ b'.reach = n ∧ (b.Tidy → b'.Tidy)
  refl _ h hn := ⟨h, hn, id⟩
  trans h h' hb hn := by
    obtain ⟨hb₁, hn₁, ht₁⟩ := h hb hn
    obtain ⟨hb₂, hn₂, ht₂⟩ := h' hb₁ hn₁
    exact ⟨hb₂, hn₂, fun ht => ht₂ (ht₁ ht)⟩

section

variable {n : Nat} {α : Type}

theorem tidying_of_reshaped {x : BankM α}
    (hx : ∀ b : Bank, b.Frank → b.reach = n → ∃ (r : Nat) (s : Shape), b.Reshaped r s (after x b) ∧ (b.Tidy → s.Tidy)) :
    (tidying n).Keeps x := by
  intro b hb hn
  obtain ⟨r, s, hreshaped, hs⟩ := hx b hb hn
  exact ⟨hreshaped.frank, hreshaped.reach.trans hn, fun ht => hreshaped.tidy ht (hs ht)⟩

theorem tidying_of_echoes {x : BankM α} (hx : ∀ b : Bank, b.Frank → b.reach = n → b.Echoes (after x b)) :
    (tidying n).Keeps x :=
  tidying_of_reshaped fun b hb hn => ⟨0, _, (hx b hb hn).reshaped 0, fun ht => ht 0⟩

@[grind ←]
theorem tidying_cell (r : Nat) : (tidying n).Keeps (cell r) := tidying_of_echoes fun _ hb _ => hb.echoes

@[grind ←]
theorem tidying_flags (hr : r < n) : (tidying n).Keeps (flags r) := by
  refine tidying_of_echoes fun b hb hn => ?_
  obtain ⟨b', hrun, hb'⟩ := hb.flags_run (hn ▸ hr)
  rwa [after_of_ok hrun]

@[grind ←]
theorem tidying_int (hr : r < n) : (tidying n).Keeps (int r) := by
  refine tidying_of_echoes fun b hb hn => ?_
  obtain ⟨m, hrun, -⟩ := hb.int_run (hn ▸ hr)
  rw [after_of_ok hrun]
  exact hb.echoes

@[grind ←]
theorem tidying_real (r : Nat) : (tidying n).Keeps (real r) := by
  refine tidying_of_echoes fun b hb _ => ?_
  obtain ⟨x, hrun⟩ := hb.real_run r
  rw [after_of_ok hrun]
  exact hb.echoes

theorem Frank.setInt_after (h : b.Frank) (hr : r < b.reach) (m : Int) (constant : Bool) :
    b.Reshaped r (b.cellAt r).shape (after (setInt r m constant) b) := by
  cases hm : fitsWord m with
  | true =>
    obtain ⟨b', hrun, hb'⟩ := h.setInt_run hr hm constant
    rwa [after_of_ok hrun]
  | false =>
    rw [after_of_error (setInt_run_of_not_fits b r hm constant)]
    exact h.echoes.reshaped r

@[grind ←]
theorem tidying_setInt (hr : r < n) (m : Int) (constant : Bool) : (tidying n).Keeps (setInt r m constant) :=
  tidying_of_reshaped fun _ hb hn => ⟨r, _, hb.setInt_after (hn ▸ hr) m constant, fun ht => ht r⟩

@[grind ←]
theorem tidying_setReal (hr : r < n) (x : Number) : (tidying n).Keeps (setReal r x false) := by
  refine tidying_of_reshaped fun b hb hn => ⟨r, (b.cellAt r).shape, ?_, fun ht => ht r⟩
  obtain ⟨b', hrun, hb'⟩ := hb.setReal_run (hn ▸ hr) x
  rwa [after_of_ok hrun]

@[grind ←]
theorem tidying_truncate (x : Number) : (tidying n).Keeps (truncate x) := by
  cases x with
  | int m => exact .pure m
  | real x =>
    rw [truncate]
    split
    · exact .pure _
    · exact .throw _

theorem Frank.retype_run (h : b.Frank) (hr : r < b.reach) (kind : Flags) :
    ∃ b', retype r kind b = .ok () b' ∧ b.Reshaped r ((b.cellAt r).shape.withFlags ((b.cellAt r).flags.retype kind)) b' := by
  obtain ⟨b₁, hlook, h₁⟩ := h.flags_run hr
  obtain ⟨b', hrun, hb'⟩ := h₁.frank.setFlags_run (h₁.reach ▸ hr) ((b.cellAt r).flags.retype kind)
  rw [h₁.cellAt] at hb'
  exact ⟨b', (bind_of_ok hlook).trans hrun, h₁.reshaped_trans hb'⟩

theorem milder_retype (f : Flags) {kind : Flags} (hk : kind = .onlyNull ∨ kind = .onlyInt ∨ kind = .onlyReal) :
    f.Milder (f.retype kind) := by
  obtain rfl | rfl | rfl := hk <;>
    exact ⟨fun hd => by simpa [Flags.retype, Flags.union, Flags.storage, Flags.onlyNull, Flags.onlyInt, Flags.onlyReal] using hd,
      rfl, fun ht => by cases ht⟩

theorem tidying_retype (hr : r < n) {kind : Flags} (hk : kind = .onlyNull ∨ kind = .onlyInt ∨ kind = .onlyReal) :
    (tidying n).Keeps (retype r kind) := by
  refine tidying_of_reshaped fun b hb hn => ⟨r, _, ?_, fun ht => (ht r).withFlags (milder_retype _ hk)⟩
  obtain ⟨b', hrun, hb'⟩ := hb.retype_run (hn ▸ hr) kind
  rwa [after_of_ok hrun]

theorem tidying_direct (hr : r < n) {rule : Nat → Cell → Cell}
    (hrule : ∀ name c, c.shape.Tidy → (rule name c).shape.Tidy) : (tidying n).Keeps (direct r rule) := by
  refine tidying_of_reshaped fun b hb hn => ⟨r, (rule b.fresh (b.cellAt r)).shape, ?_, fun ht => hrule _ _ (ht r)⟩
  obtain ⟨b', hrun, hb'⟩ := hb.direct_run (hn ▸ hr) rule
  rwa [after_of_ok hrun]

@[grind ←]
theorem tidying_isDynamic (hr : r < n) : (tidying n).Keeps (isDynamic r) := by grind [isDynamic]

@[grind ←]
theorem tidying_clearExtern (hr : r < n) : (tidying n).Keeps (clearExtern r) := by
  refine tidying_of_reshaped fun b hb hn => ⟨r, (b.cellAt r).shape.withFlags .onlyNull, ?_, fun ht => (ht r).plain rfl rfl rfl⟩
  obtain ⟨b', hrun, hb'⟩ := hb.clearExtern_run (hn ▸ hr)
  rw [after_of_ok hrun]
  exact hb'.reshaped

@[grind ←]
theorem tidying_releaseExtern (hr : r < n) : (tidying n).Keeps (releaseExtern r) := by grind [releaseExtern]

theorem tidying_setNull (hr : r < n) : (tidying n).Keeps (setNull r) := by
  have hclear : (tidying n).Keeps (direct r fun _ => Cell.setNull) := by
    refine tidying_direct hr fun _ c hc => ?_
    rw [Cell.setNull]
    split <;> exact hc.plain rfl rfl rfl
  have hretype := tidying_retype hr (.inl rfl)
  grind [setNull]

@[grind ←]
theorem tidying_intValue (hr : r < n) : (tidying n).Keeps (intValue r) := by grind [intValue]

@[grind ←]
theorem tidying_realValue (hr : r < n) : (tidying n).Keeps (realValue r) := by grind [realValue]

@[grind ←]
theorem tidying_integerAffinity (hr : r < n) : (tidying n).Keeps (integerAffinity r) := by
  have hretype := tidying_retype hr (.inr (.inl rfl))
  grind [integerAffinity]

theorem tidying_integerify (hr : r < n) : (tidying n).Keeps (integerify r) := by
  have hretype := tidying_retype hr (.inr (.inl rfl))
  grind [integerify]

theorem tidying_realify (hr : r < n) : (tidying n).Keeps (realify r) := by
  have hretype := tidying_retype hr (.inr (.inr rfl))
  grind [realify]

theorem tidying_numericType (hr : r < n) : (tidying n).Keeps (numericType r) := by grind [numericType]

@[grind ←]
theorem tidying_stringify (hr : r < n) (force : Bool) : (tidying n).Keeps (stringify r force) :=
  tidying_direct hr fun name _ => Cell.tidy_stringify name force

theorem tidying_nulTerminate (hr : r < n) : (tidying n).Keeps (nulTerminate r) := by
  have hdirect : (tidying n).Keeps (direct r Cell.nulTerminate) := tidying_direct hr fun name _ => Cell.tidy_nulTerminate name
  grind [nulTerminate]

@[grind ←]
theorem tidying_expandBlob (hr : r < n) : (tidying n).Keeps (expandBlob r) := by
  have hdirect : (tidying n).Keeps (direct r Cell.expandBlob) := tidying_direct hr fun name _ => Cell.tidy_expandBlob name
  grind [expandBlob]

theorem tidying_setText (hr : r < n) (bytes : Bytes) : (tidying n).Keeps (setText r bytes) :=
  tidying_direct hr fun name c _ => c.tidy_setBytes name bytes

theorem tidying_look (hr : r < n) {k : Flags → BankM α}
    (hk : ∀ b : Bank, b.Frank → b.reach = n → (tidying n).rel b (after (k (b.cellAt r).flags) b)) :
    (tidying n).Keeps (flags r >>= k) := by
  intro b hb hn
  obtain ⟨b₁, hrun, h₁⟩ := hb.flags_run (hn ▸ hr)
  have hrest := hk b₁ h₁.frank (h₁.reach.trans hn) h₁.frank (h₁.reach.trans hn)
  rw [h₁.cellAt, ← after_bind_of_ok hrun] at hrest
  exact ⟨hrest.1, hrest.2.1, fun ht => hrest.2.2 ((h₁.reshaped r).tidy ht (ht r))⟩

theorem Reshaped.tidying (h : b.Reshaped r s b') (hs : b.Tidy → s.Tidy) : (tidying n).rel b b' :=
  fun _ hn => ⟨h.frank, h.reach.trans hn, fun ht => h.tidy ht (hs ht)⟩

theorem Frank.applyNumericAffinity_rel (hb : b.Frank) (hn : b.reach = n) (hr : r < n) {tryInt : Bool}
    (hnumber : ¬ (b.cellAt r).Blurs tryInt) : (tidying n).rel b (after (applyNumericAffinity r tryInt) b) := by
  obtain ⟨b', hrun, hb'⟩ := hb.direct_run (hn ▸ hr) fun _ => Cell.applyNumericAffinity tryInt
  rw [show after (applyNumericAffinity r tryInt) b = b' from after_of_ok hrun]
  exact hb'.tidying fun ht => (Cell.tidy_applyNumericAffinity_iff tryInt (ht r)).mpr hnumber

@[grind ←]
theorem tidying_applyAffinity (hr : r < n) (code : Int) : (tidying n).Keeps (applyAffinity r code) := by
  refine tidying_look hr fun b hb hn => ?_
  split
  · cases (Affinity.ofCode? code).isSome with
    | false => exact (tidying n).refl b
    | true =>
      show (tidying n).rel b (after (if !(b.cellAt r).flags.int && !(b.cellAt r).flags.real then _ else _) b)
      split
      · rename_i hnumber
        split
        · refine hb.applyNumericAffinity_rel hn hr (Cell.not_blurs ?_ true)
          simpa [Flags.numeric] using hnumber
        · exact (tidying_integerAffinity hr).discard b
      · exact (tidying n).refl b
  · split
    · exact Frame.Keeps.ite (tidying_stringify hr true) (.pure _) b
    · exact (tidying n).refl b

theorem tidying_numericKind (hr : r < n) : (tidying n).Keeps (numericKind r) := by
  have hkind : (tidying n).Keeps (do return (← flags r).kind) := (tidying_flags hr).bind fun _ => .pure _
  rw [numericKind, valueKind, bind_assoc]
  refine tidying_look hr fun b hb hn => ?_
  rw [pure_bind]
  split
  · rename_i hk
    have hnumeric : (b.cellAt r).flags.numeric = false := by
      obtain ⟨hkind, -⟩ | ⟨hkind, -⟩ | ⟨hkind, -⟩ | ⟨-, -, hint, hreal⟩ := (b.cellAt r).flags.kind_cases
      · rw [hk] at hkind
        cases hkind
      · rw [hk] at hkind
        cases hkind
      · rw [hk] at hkind
        cases hkind
      · rw [Flags.numeric, hint, hreal]
        rfl
    exact Frame.Keeps.after_bind (fun _ => hkind) (hb.applyNumericAffinity_rel hn hr (Cell.not_blurs hnumeric false))
  · exact hkind b

theorem Frank.setFlags_rel (hb : b.Frank) (hn : b.reach = n) (hr : r < n) {g : Flags}
    (hg : b.Tidy → (b.cellAt r).flags.Milder g) : (tidying n).rel b (after (setFlags r g) b) := by
  obtain ⟨b', hrun, hb'⟩ := hb.setFlags_run (hn ▸ hr) g
  rw [after_of_ok hrun]
  exact hb'.tidying fun ht => (ht r).withFlags (hg ht)

theorem tidying_numerify (hr : r < n) : (tidying n).Keeps (numerify r) := by
  refine tidying_look hr fun b hb hn => ?_
  have hint := tidying_retype hr (.inr (.inl rfl))
  have hreal := tidying_realify hr
  cases hnumber : (b.cellAt r).flags.int || (b.cellAt r).flags.real || (b.cellAt r).flags.null with
  | true =>
    refine hb.setFlags_rel hn hr fun ht => ⟨id, (ht r).number, fun htext => ?_⟩
    cases htext
  | false =>
    have hend (k : BankM Unit) : (tidying n).Keeps (check false >>= fun _ => k) := fun b => (tidying n).refl b
    simp only [Bool.not_false, if_true]
    refine (Frame.Keeps.bind (.check _) fun _ => (tidying_cell r).bind fun c => ?_ : (tidying n).Keeps _) b
    split
    · exact (tidying_setInt hr _ _).bind fun _ => hint.bind fun _ => hend _
    · exact hreal.bind fun _ => (tidying_integerAffinity hr).discard.bind fun _ => hend _

theorem tidying_cast (hr : r < n) (code : Int) : (tidying n).Keeps (Bank.cast r code) := by
  have hnumeric := tidying_numerify hr
  have hint := tidying_integerify hr
  have hreal := tidying_realify hr
  refine tidying_look hr fun b hb hn => ?_
  split
  · exact (tidying n).refl b
  cases Affinity.ofCode? code with
  | none => exact (tidying n).refl b
  | some aff =>
    cases aff with
    | none => exact (tidying n).refl b
    | numeric => exact hnumeric b
    | integer => exact hint b
    | real => exact hreal b
    | text =>
      have hlast : (tidying n).Keeps (do
          let f ← flags r
          setFlags r { f with int := false, real := false, blob := false, zero := false }) :=
        tidying_look hr fun b hb hn => hb.setFlags_rel hn hr fun _ => ⟨id, rfl, fun htext => by
          refine ⟨?_, rfl, rfl, rfl⟩
          simp only [Flags.textual, Bool.or_false] at htext ⊢
          rw [htext, Bool.true_or]⟩
      refine Frame.Keeps.after_bind (fun _ => (tidying_applyAffinity hr _).bind fun _ => (tidying_flags hr).bind fun _ =>
        (Frame.Keeps.check _).bind fun _ => hlast) (hb.setFlags_rel hn hr fun ht => ⟨id, (ht r).number, fun htext => ?_⟩)
      refine ⟨?_, rfl, rfl, rfl⟩
      simp only [Flags.textual, Bool.or_assoc, Bool.or_self] at htext ⊢
      exact htext

@[grind ←]
theorem tidying_valueText (hr : r < n) : (tidying n).Keeps (valueText r) := by
  refine tidying_look hr fun b hb hn => ?_
  refine Frame.Keeps.after_bind (fun _ => ?_) (Frame.Keeps.check _ b)
  refine (tidying_cell r).bind fun c => .ite (.pure _) (.ite (.pure _) ?_)
  -- the register is handed to a rule that also answers
  intro b hb hn
  obtain ⟨b₁, hforget, -⟩ := hb.forget_run (hn ▸ hr)
  have hrun : (do
      invalidate r
      let name ← freshName
      let answer := (← cell r).valueText name
      putCell r answer.2
      return answer.1) b = .ok ((b₁.cellAt r).valueText b₁.fresh).1
        (b₁.renewed.put r ((b₁.cellAt r).valueText b₁.fresh).2) := by
    rw [bind_of_ok hforget, bind_of_ok (freshName_run b₁), bind_of_ok (cell_run _ r)]
    exact bind_of_ok (putCell_run b₁.renewed r _)
  have hdirect : direct r (fun name c => (c.valueText name).2) b =
      .ok () (b₁.renewed.put r ((b₁.cellAt r).valueText b₁.fresh).2) :=
    (bind_of_ok hforget).trans (modifyCellWith_run b₁ r _)
  have hkeeps := tidying_direct hr (fun name c (hc : c.shape.Tidy) => Cell.tidy_valueText name hc) b hb hn
  rw [after_of_ok hdirect] at hkeeps
  rw [after_of_ok hrun]
  exact hkeeps

theorem tidying_valueBytes (hr : r < n) : (tidying n).Keeps (valueBytes r) := by grind [valueBytes]

end

/-! The rules that may leave a string without an owner, or with two of them. -/

namespace Frank

variable {j n : Nat}

theorem claim_after (h : b.Frank) (hr : r < b.reach) (kind : Flags) {k : BankM Unit}
    (hk : ∀ b : Bank, b.Frank → r < b.reach → b.Reshaped r (b.cellAt r).shape (after k b)) :
    b.Reshaped r ((b.cellAt r).shape.claimed kind) (after (do
      if (← flags r) != kind then
        release r
        setFlags r kind
      k) b) := by
  obtain ⟨b₁, hlook, h₁⟩ := h.flags_run hr
  have hr₁ : r < b₁.reach := by rwa [h₁.reach]
  rw [after_bind_of_ok hlook, Shape.claimed, Cell.flags_shape]
  by_cases hkind : (b.cellAt r).flags = kind
  · rw [if_pos hkind, hkind, if_neg (by simp)]
    have hrest := hk b₁ h₁.frank hr₁
    rw [h₁.cellAt] at hrest
    exact h₁.reshaped_trans hrest
  · rw [if_neg hkind, if_pos (by simpa using hkind)]
    obtain ⟨b₂, hrelease, h₂⟩ := h₁.frank.release_run hr₁
    have hr₂ : r < b₂.reach := by rwa [h₂.reach]
    obtain ⟨b₃, hset, h₃⟩ := h₂.frank.setFlags_run hr₂ kind
    rw [after_bind_of_ok hrelease, after_bind_of_ok hset]
    have hrest := hk b₃ h₃.frank (by rwa [h₃.reach])
    rw [h₃.self, h₂.self, h₁.cellAt] at hrest
    exact h₁.reshaped_trans (h₂.trans (h₃.trans hrest))

theorem setInteger_after (h : b.Frank) (hr : r < b.reach) (m : Int) (constant : Bool) :
    b.Reshaped r ((b.cellAt r).shape.claimed .onlyInt) (after (setInteger r m constant) b) :=
  h.claim_after hr .onlyInt fun _ hb hr => hb.setInt_after hr m constant

theorem setDouble_after (h : b.Frank) (hr : r < b.reach) {x : Number} (hx : x.isNaN = false) :
    b.Reshaped r ((b.cellAt r).shape.claimed .onlyReal) (after (setDouble r x) b) := by
  rw [setDouble, hx, if_neg Bool.false_ne_true]
  refine h.claim_after hr .onlyReal fun b hb hr => ?_
  obtain ⟨b', hrun, hb'⟩ := hb.setReal_run hr x
  rwa [after_of_ok hrun]

theorem expandBlob_run (h : b.Frank) (hr : r < b.reach) :
    ∃ b' name, expandBlob r b = .ok () b' ∧ b.Reshaped r ((b.cellAt r).expandBlob name).shape b' := by
  obtain ⟨b₁, hlook, h₁⟩ := h.flags_run hr
  rw [expandBlob, bind_of_ok hlook]
  cases hzero : (b.cellAt r).flags.zero with
  | true =>
    obtain ⟨b', hrun, hb'⟩ := h₁.frank.direct_run (by rwa [h₁.reach]) Cell.expandBlob
    rw [h₁.cellAt] at hb'
    exact ⟨b', b₁.fresh, hrun, h₁.reshaped_trans hb'⟩
  | false =>
    refine ⟨b₁, 0, rfl, ?_⟩
    rw [Cell.expandBlob, hzero, if_neg Bool.false_ne_true]
    exact h₁.reshaped r

theorem makeWriteable_after (h : b.Frank) (hr : r < b.reach) :
    ∃ s, b.Reshaped r s (after (makeWriteable r) b) ∧ ((b.cellAt r).shape.Tidy → (s.Tidy ↔ ¬ (b.cellAt r).Doubles)) := by
  obtain ⟨b₁, hlook, h₁⟩ := h.flags_run hr
  rw [makeWriteable, after_bind_of_ok hlook]
  cases hrowSet : (b.cellAt r).flags.rowSet with
  | true =>
    refine ⟨_, h₁.reshaped r, fun ht => iff_of_true ht fun hb => ?_⟩
    rw [Cell.Doubles, hrowSet] at hb
    cases hb.1
  | false =>
    have hdoubles : (b.cellAt r).Doubles ↔ (b.cellAt r).flags.zero = false ∧ (b.cellAt r).flags.textual = true ∧
        (b.cellAt r).isOwner = false ∧ (0 < (b.cellAt r).size ∨ (b.cellAt r).flags.dyn = true) := by
      rw [Cell.Doubles, hrowSet, and_iff_right rfl]
    rw [hdoubles, after_bind_of_ok (show (check (!false) : BankM Unit) b₁ = .ok () b₁ from rfl)]
    obtain ⟨b₂, name, hexpand, h₂⟩ := h₁.frank.expandBlob_run (show r < b₁.reach by rwa [h₁.reach])
    have h₂ := h₁.reshaped_trans h₂
    have hr₂ : r < b₂.reach := by rwa [h₂.reach]
    obtain ⟨b₃, hlook₃, h₃⟩ := h₂.frank.flags_run hr₂
    have hr₃ : r < b₃.reach := by rwa [h₃.reach]
    rw [after_bind_of_ok hexpand, after_bind_of_ok hlook₃, after_bind_of_ok (cell_run b₃ r), h₃.cellAt]
    have hshape : (b₂.cellAt r).shape = ((b.cellAt r).expandBlob name).shape := by rw [h₂.self, h₁.cellAt]
    have howner : (b₂.cellAt r).isOwner = ((b.cellAt r).expandBlob name).isOwner :=
      congrArg (fun s : Shape => s.place == s.own) hshape
    cases hzero : (b.cellAt r).flags.zero with
    | true =>
      -- zero bytes that are written out are in the own buffer already
      have hhouses := Cell.houses_expandBlob name hzero
      have hplace : ((b.cellAt r).expandBlob name).isOwner = true := beq_iff_eq.mpr hhouses.place
      rw [howner, hplace, Bool.not_true, Bool.and_false, if_neg Bool.false_ne_true]
      refine ⟨_, h₂.trans (h₃.reshaped r), fun ht => iff_of_true ?_ fun hb => Bool.false_ne_true hb.1.symm⟩
      rw [hshape]
      exact Cell.tidy_expandBlob name ht
    | false =>
      have hsame : (b.cellAt r).expandBlob name = b.cellAt r := by
        rw [Cell.expandBlob, hzero, if_neg Bool.false_ne_true]
      rw [hsame] at hshape howner
      have hflags : (b₂.cellAt r).flags = (b.cellAt r).flags := congrArg Shape.flags hshape
      have hsize : (b₂.cellAt r).size = (b.cellAt r).size := congrArg Shape.size hshape
      by_cases hmoves : ((b.cellAt r).flags.textual && !(b.cellAt r).isOwner) = true
      · rw [hflags, howner, if_pos hmoves]
        rw [Bool.and_eq_true, Bool.not_eq_true'] at hmoves
        obtain ⟨b₄, hterminate, h₄⟩ := h₃.frank.direct_run hr₃ Cell.addTerminator
        obtain ⟨b₅, hset, h₅⟩ := h₄.frank.setFlags_run (by rwa [h₄.reach]) { (b.cellAt r).flags with term := true }
        rw [after_bind_of_ok hterminate, after_of_ok hset]
        refine ⟨_, h₂.trans (h₃.reshaped_trans (h₄.trans h₅)), fun ht => ?_⟩
        rw [h₄.self, h₃.cellAt, and_iff_right rfl, and_iff_right hmoves.1, and_iff_right hmoves.2, ← hsize, ← hflags]
        refine Cell.tidy_addTerminator_iff _ (by rwa [hshape]) ?_ ?_
        · rw [hflags]
          exact hmoves.1
        · rw [howner]
          exact hmoves.2
      · rw [hflags, howner, if_neg hmoves]
        refine ⟨_, h₂.trans (h₃.reshaped r), fun ht => iff_of_true (by rwa [hshape]) fun hb => hmoves ?_⟩
        rw [hb.2.1, hb.2.2.1]
        rfl

theorem takePayload_run (h : b.Frank) (hr : r < b.reach) (hj : j < b.reach) (f : Flags) :
    ∃ b', takePayload r j f b = .ok () b' ∧ b.Reshaped r (b.cellAt r).shape b' := by
  -- each of the three parts leaves the shape alone
  have hreal : ∃ b', (if f.real then do setReal r (← real j) false else pure () : BankM Unit) b = .ok () b' ∧
      b.Reshaped r (b.cellAt r).shape b' := by
    cases f.real with
    | false => exact ⟨b, rfl, h.echoes.reshaped r⟩
    | true =>
      obtain ⟨x, hx⟩ := h.real_run j
      obtain ⟨b', hrun, hb'⟩ := h.setReal_run hr x
      exact ⟨b', (bind_of_ok hx).trans hrun, hb'⟩
  obtain ⟨b₁, hrun₁, h₁⟩ := hreal
  have hr₁ : r < b₁.reach := by rwa [h₁.reach]
  have hint : ∃ b', (if f.int then do setInt r (← int j) false else pure () : BankM Unit) b₁ = .ok () b' ∧
      b₁.Reshaped r (b₁.cellAt r).shape b' := by
    cases f.int with
    | false => exact ⟨b₁, rfl, h₁.frank.echoes.reshaped r⟩
    | true =>
      obtain ⟨m, hm, hfits⟩ := h₁.frank.int_run (show j < b₁.reach by rwa [h₁.reach])
      obtain ⟨b', hrun, hb'⟩ := h₁.frank.setInt_run hr₁ hfits false
      exact ⟨b', (bind_of_ok hm).trans hrun, hb'⟩
  obtain ⟨b₂, hrun₂, h₂⟩ := hint
  have hr₂ : r < b₂.reach := by rwa [h₂.reach]
  have hzeros : ∃ b', (if f.zero then do
        let zeros := (← cell j).zeros
        modifyCell r fun c => { c with payload := Content.withZeros c.payload zeros }
      else pure () : BankM Unit) b₂ = .ok () b' ∧ b₂.Reshaped r (b₂.cellAt r).shape b' := by
    cases f.zero with
    | false => exact ⟨b₂, rfl, h₂.frank.echoes.reshaped r⟩
    | true =>
      refine ⟨_, (bind_of_ok (cell_run b₂ j)).trans (modifyCell_run b₂ r _), ?_⟩
      exact h₂.frank.reshaped_withCell hr₂
        { b₂.cellAt r with payload := Content.withZeros (b₂.cellAt r).payload (b₂.cellAt j).zeros } rfl rfl
        (h₂.frank.withCell hr₂ rfl)
  obtain ⟨b₃, hrun₃, h₃⟩ := hzeros
  rw [h₂.self, h₁.self] at h₃
  refine ⟨b₃, ?_, h₁.trans (h₂.trans h₃)⟩
  have hparts : takePayload r j f = ((if f.real then do setReal r (← real j) false else pure ()) >>= fun _ =>
      (if f.int then do setInt r (← int j) false else pure ()) >>= fun _ => if f.zero then do
        let zeros := (← cell j).zeros
        modifyCell r fun c => { c with payload := Content.withZeros c.payload zeros }
      else pure ()) := by
    rw [takePayload]
    cases f.real <;> cases f.int <;> simp
  rw [hparts, bind_of_ok hrun₁, bind_of_ok hrun₂, hrun₃]

theorem after_check_if {q : Prop} [Decidable q] {p : Bool} {k : Unit → BankM Unit} :
    after (if q then check p >>= k else k ()) b = if q ∧ p = false then b else after (k ()) b := by
  by_cases hq : q
  · rw [if_pos hq]
    cases p with
    | true => rw [if_neg fun hp => Bool.false_ne_true hp.2.symm]; rfl
    | false => rw [if_pos ⟨hq, rfl⟩]; rfl
  · rw [if_neg hq, if_neg fun hp => hq hp.1]

/-- An aggregate or a frame is lent only if there is nothing else to lend. -/
theorem takeString_after (h : b.Frank) (hr : r < b.reach) (j : Nat) (loan : Cell.Loan) {f : Flags}
    (hf : (b.cellAt j).flags = f) :
    ∃ s, b.Reshaped r s (after (takeString r j f (some loan)) b) ∧
      (s = (b.cellAt r).shape ∧ (f.agg || f.frame) = true ∨
        s = (b.cellAt r).shape.lent (b.cellAt j).shape loan ∧
          ((f.agg || f.frame) = true → f.textual = false ∧ f.dyn = false)) := by
  have hmark : after (takeString r j f (some loan)) b = if f.agg = true ∧ (f == { agg := true }) = false then b
      else if f.frame = true ∧ (f == { frame := true }) = false then b else after (do
        let src ← cell j
        modifyCell r fun c =>
          { c with
            encoding := src.encoding
            size := src.size
            data := src.data
            attachment := src.attachment }
        setFlags r (loan.mark f)) b := by
    unfold takeString
    refine after_check_if.trans (congrArg _ (after_check_if.trans (congrArg _ ?_)))
    cases hstatic : f.static with
    | true =>
      have hself : loan.mark f = f := by rw [Cell.Loan.mark, if_pos hstatic]
      rw [hself]
    | false => rfl
  rw [hmark]
  split
  · rename_i hagg
    exact ⟨_, h.echoes.reshaped r, .inl ⟨rfl, by rw [hagg.1, Bool.true_or]⟩⟩
  rename_i hagg
  split
  · rename_i hframe
    exact ⟨_, h.echoes.reshaped r, .inl ⟨rfl, by rw [hframe.1, Bool.or_true]⟩⟩
  rename_i hframe
  have hlent := h.withCell hr (c := { b.cellAt r with
      encoding := (b.cellAt j).encoding
      size := (b.cellAt j).size
      data := (b.cellAt j).data
      attachment := (b.cellAt j).attachment }) rfl
  obtain ⟨b', hset, hb'⟩ := hlent.setFlags_run hr (loan.mark f)
  rw [after_bind_of_ok (cell_run b j), after_bind_of_ok (modifyCell_run b r _), after_of_ok hset]
  rw [cellAt_withCell_self (h.lt_size hr)] at hb'
  refine ⟨_, (h.reshaped_withCell hr _ rfl rfl hlent).trans hb', .inr ⟨?_, fun hor => ?_⟩⟩
  · rw [Shape.lent, Cell.flags_shape, hf]
    rfl
  · rw [Bool.or_eq_true] at hor
    obtain ha | ha := hor
    · have : f = { agg := true } := by simpa [ha] using hagg
      rw [this]
      exact ⟨rfl, rfl⟩
    · have : f = { frame := true } := by simpa [ha] using hframe
      rw [this]
      exact ⟨rfl, rfl⟩

theorem clashes_iff {d : Shape} (ht : b.Tidy) (hrowSet : (b.cellAt j).flags.rowSet = false)
    (hd : d = if j = r then (b.cellAt r).shape.freed else (b.cellAt j).shape) :
    (b.cellAt r).Clashes (b.cellAt j) ↔ (d.flags.agg || d.flags.frame) = false ∧ (b.cellAt r).room ≠ 0 ∧
      (d.flags.textual = true ∧ 0 < d.size ∧ d.place = (b.cellAt r).own ∨ d.flags.dyn = true ∧ d.flags.static = true) := by
  have hsame (hd : d = (b.cellAt j).shape) : (b.cellAt r).Clashes (b.cellAt j) ↔ (d.flags.agg || d.flags.frame) = false ∧
      (b.cellAt r).room ≠ 0 ∧ (d.flags.textual = true ∧ 0 < d.size ∧ d.place = (b.cellAt r).own ∨
        d.flags.dyn = true ∧ d.flags.static = true) := by
    rw [Cell.Clashes, hd, and_iff_right hrowSet, Bool.or_eq_false_iff]
    rfl
  split at hd
  · rename_i hjr
    subst hjr
    cases hdynamic : (b.cellAt j).flags.dynamic with
    | false => exact hsame (hd.trans (Shape.freed_of_not_dynamic hdynamic))
    | true =>
      rw [Shape.freed, Cell.flags_shape, hdynamic, if_pos rfl] at hd
      rw [hd]
      refine iff_of_false ?_ ?_
      · rintro ⟨⟨-, hagg, hframe⟩, hroom, -⟩
        rw [Flags.dynamic, hagg, hrowSet, hframe] at hdynamic
        simp only [Bool.or_false, Bool.false_or] at hdynamic
        exact hroom ((ht j).foreign hdynamic)
      · rintro ⟨-, -, ⟨htext, -⟩ | ⟨hdyn, -⟩⟩
        · cases htext
        · cases hdyn
  · exact hsame hd

theorem shallowCopy_after (h : b.Frank) (hr : r < b.reach) (hj : j < b.reach) (loan : Cell.Loan) :
    ∃ s, b.Reshaped r s (after (shallowCopy r j (some loan)) b) ∧
      (b.Tidy → (s.Tidy ↔ ¬ (b.cellAt r).Clashes (b.cellAt j))) := by
  obtain ⟨b₁, hlook, h₁⟩ := h.flags_run hj
  rw [shallowCopy, after_bind_of_ok hlook]
  cases hrowSet : (b.cellAt j).flags.rowSet with
  | true =>
    refine ⟨_, h₁.reshaped r, fun ht => iff_of_true (ht r) fun hb => ?_⟩
    rw [Cell.Clashes, hrowSet] at hb
    cases hb.1.1
  | false =>
    rw [after_bind_of_ok (show (check (!false) : BankM Unit) b₁ = .ok () b₁ from rfl)]
    obtain ⟨b₂, hrelease, h₂⟩ := h₁.frank.releaseExtern_run (show r < b₁.reach by rwa [h₁.reach])
    have h₂ := h₁.reshaped_trans h₂.reshaped
    rw [h₁.cellAt, Cell.shape_released] at h₂
    obtain ⟨b₃, hlook₃, h₃⟩ := h₂.frank.flags_run (show j < b₂.reach by rwa [h₂.reach])
    have h₃r : b.Reshaped r (b.cellAt r).shape.freed b₃ := h₂.trans (h₂.self ▸ h₃.reshaped r)
    obtain ⟨b₄, hpayload, h₄⟩ := h₃.frank.takePayload_run (r := r) (j := j) (by rwa [h₃r.reach]) (by rwa [h₃r.reach])
      (b₂.cellAt j).flags
    have hshape : (b₃.cellAt r).shape = (b.cellAt r).shape.freed := h₃r.self
    rw [hshape] at h₄
    have h₄r := h₃r.trans h₄
    have hd := h₄r.shape j
    have hflags : (b₄.cellAt j).flags = (b₂.cellAt j).flags := congrArg Shape.flags (hd.trans (h₂.shape j).symm)
    obtain ⟨s, h₅, hs⟩ := h₄.frank.takeString_after (r := r) (by rwa [h₄r.reach]) j loan hflags
    rw [after_bind_of_ok hrelease, after_bind_of_ok hlook₃, after_bind_of_ok hpayload]
    refine ⟨s, h₄r.trans h₅, fun ht => ?_⟩
    rw [clashes_iff ht hrowSet hd]
    rw [h₄r.self, ← hflags] at hs
    obtain ⟨rfl, hstop⟩ | ⟨rfl, hplain⟩ := hs
    · refine iff_of_true (ht r).freed fun hb => ?_
      rw [Cell.flags_shape, hstop] at hb
      cases hb.1
    · have htidy : (b₄.cellAt j).shape.Tidy := by
        rw [hd]
        split
        · exact (ht r).freed
        · exact ht j
      rw [Shape.tidy_lent_iff (ht r).freed htidy, Shape.room_freed, Shape.own_freed]
      refine not_congr ⟨fun hb => ⟨?_, hb⟩, fun hb => hb.2⟩
      by_contra hstop
      obtain ⟨htext, hdyn⟩ := hplain (Bool.eq_true_of_not_eq_false hstop)
      rw [Cell.flags_shape, htext, hdyn] at hb
      simp at hb

theorem noteFlags_run (h : b.Frank) (hr : r < b.reach) :
    ∃ b', noteFlags false r (b.cellAt r).flags b = .ok () b' ∧ b.Echoes b' := by
  cases hi : b.indexed with
  | true =>
    obtain ⟨t, hk, hreach, ht⟩ := h.known hi
    obtain ⟨b', hrun, t', l, rfl, hk', hs⟩ := hk.noteFlags_run (g := (b.cellAt r).flags) (h.lt_size hr) (ht r hr).1
      (fun _ : false = false => rfl)
    have hsame : b.withCell r ((b.cellAt r).withFlags (b.cellAt r).flags) = b := withCell_cellAt b r
    have hheeds := Heeds.of_noted (fun _ => Fact.law_tame) Fact.law_tame hk hreach ht hr hk' hs (hk.plain.fact r)
      (Fact.law_tame.look (ht r hr))
    rw [hsame] at hrun hheeds
    exact ⟨_, hrun, echoes_knowing (Obeys.of_update hheeds)⟩
  | false =>
    refine ⟨b, ?_, h.echoes⟩
    rw [noteFlags, bind_of_ok get_run, hi]
    rfl

theorem copyWhole_rewrites (h : b.Frank) (hr : r < b.reach) (hj : j < b.reach) :
    ∃ b', copyWhole r j b = .ok () b' ∧ b.Rewrites r (b.cellAt j) b' := by
  obtain ⟨b₁, hforget, h₁, hfrank⟩ := h.forget_run hr
  have hr₁ : r < b₁.reach := by rwa [h₁.reach]
  have h₂ := (h₁.rewrites r).trans (h₁.frank.rewrites_withCell hr₁ (b.cellAt j) rfl rfl (hfrank _))
  obtain ⟨b₃, hlook, h₃⟩ := (hfrank (b.cellAt j)).flags_run (show j < b₁.reach by rwa [h₁.reach])
  have hsource : ((b₁.withCell r (b.cellAt j)).cellAt j).flags = (b.cellAt j).flags := by
    rw [h₂.cellAt]
    split <;> rfl
  have htarget : b₃.cellAt r = b.cellAt j := by rw [h₃.cellAt, h₂.self]
  obtain ⟨b₄, hnote, h₄⟩ := h₃.frank.noteFlags_run (show r < b₃.reach by rwa [h₃.reach])
  rw [htarget] at hnote
  refine ⟨b₄, ?_, h₂.trans ?_⟩
  · rw [copyWhole, bind_of_ok hforget, bind_of_ok (cell_run b₁ j), h₁.cellAt, bind_of_ok (setCell_run b₁ r _),
      bind_of_ok hlook, bind_of_ok (cell_run b₃ r), htarget, hsource, beq_self_eq_true]
    exact hnote
  · have hlast := (h₃.trans h₄).rewrites r
    rwa [h₂.self] at hlast

theorem copyWhole_run (h : b.Frank) (hr : r < b.reach) (hj : j < b.reach) :
    ∃ b', copyWhole r j b = .ok () b' ∧ b.Reshaped r (b.cellAt j).shape b' := by
  obtain ⟨b', hrun, hb'⟩ := h.copyWhole_rewrites hr hj
  exact ⟨b', hrun, hb'.reshaped⟩

theorem moveFrom_run (h : b.Frank) (hr : r < b.reach) (hj : j < b.reach) :
    ∃ c b', moveFrom r j b = .ok () b' ∧ b'.Frank ∧ b'.reach = b.reach ∧ (r ≠ j → c = b.cellAt j) ∧
      ∀ k, b'.cellAt k = if j = k then c.movedAway else if r = k then b.cellAt j else b.cellAt k := by
  obtain ⟨b₁, hrelease, h₁⟩ := h.release_rewrites hr
  obtain ⟨b₂, hcopy, h₂⟩ := h₁.frank.copyWhole_rewrites (r := r) (j := j) (by rwa [h₁.reach]) (by rwa [h₁.reach])
  obtain ⟨b₃, hset, h₃⟩ := h₂.frank.setFlags_rewrites (r := j) (by rwa [h₂.reach, h₁.reach]) .onlyNull
  have hj₃ : j < b₃.reach := by rwa [h₃.reach, h₂.reach, h₁.reach]
  have hfrank := h₃.frank.withCell hj₃ (c := { b₃.cellAt j with room := 0, attachment := .nothing }) rfl
  have h₄ := h₃.trans (h₃.frank.rewrites_withCell hj₃ _ rfl rfl hfrank)
  refine ⟨b₂.cellAt j, _, ?_, hfrank, by rw [h₄.reach, h₂.reach, h₁.reach], fun hne => ?_, fun k => ?_⟩
  · rw [moveFrom, bind_of_ok hrelease, bind_of_ok hcopy, bind_of_ok hset]
    exact modifyCell_run b₃ j _
  · rw [h₂.cellAt, if_neg hne, h₁.cellAt, if_neg hne]
  · rw [h₄.cellAt, h₃.self]
    split
    · rfl
    · rename_i hk
      rw [h₂.cellAt, h₁.cellAt, h₁.cellAt]
      split
      · rename_i hrk
        rw [if_neg fun hrj => hk (hrj.symm.trans hrk)]
      · rfl

theorem moveFrom_after (h : b.Frank) (hr : r < b.reach) (hj : j < b.reach) :
    (after (moveFrom r j) b).Frank ∧ (after (moveFrom r j) b).reach = b.reach ∧
      (b.Tidy → (after (moveFrom r j) b).Tidy) := by
  obtain ⟨c, b', hrun, hfrank, hreach, -, hcells⟩ := h.moveFrom_run hr hj
  rw [after_of_ok hrun]
  refine ⟨hfrank, hreach, fun ht k => ?_⟩
  rw [hcells]
  split
  · exact ⟨fun hroom => absurd rfl hroom, fun _ => rfl, rfl, fun htext => by cases htext⟩
  · split
    · exact ht j
    · exact ht k

end Frank

/-- The rules by which registers are changed and looked at. -/
inductive Rule
  | clearExtern (r : Nat)
  | releaseExtern (r : Nat)
  | clearStorage (r : Nat)
  | release (r : Nat)
  | setNull (r : Nat)
  | setInteger (r : Nat) (n : Int) (constant : Bool)
  | setDouble (r : Nat) (x : Number)
  | setText (r : Nat) (bytes : Bytes)
  | grow (r n : Nat) (preserve : Bool)
  | makeWriteable (r : Nat)
  | expandBlob (r : Nat)
  | nulTerminate (r : Nat)
  | stringify (r : Nat) (force : Bool)
  | integerify (r : Nat)
  | realify (r : Nat)
  | numerify (r : Nat)
  | cast (r : Nat) (code : Int)
  | integerAffinity (r : Nat)
  | applyNumericAffinity (r : Nat) (tryInt : Bool)
  | applyAffinity (r : Nat) (code : Int)
  | shallowCopy (r j : Nat) (loan : Cell.Loan)
  | copyWhole (r j : Nat)
  | moveFrom (r j : Nat)
  | numericType (r : Nat)
  | numericKind (r : Nat)
  | intValue (r : Nat)
  | realValue (r : Nat)
  | valueText (r : Nat)
  | valueBytes (r : Nat)

namespace Rule

def run : Rule → BankM Unit
  | clearExtern r => Bank.clearExtern r
  | releaseExtern r => Bank.releaseExtern r
  | clearStorage r => Bank.clearStorage r
  | release r => Bank.release r
  | setNull r => Bank.setNull r
  | setInteger r n constant => Bank.setInteger r n constant
  | setDouble r x => Bank.setDouble r x
  | setText r bytes => Bank.setText r bytes
  | grow r n preserve => Bank.grow r n preserve
  | makeWriteable r => Bank.makeWriteable r
  | expandBlob r => Bank.expandBlob r
  | nulTerminate r => Bank.nulTerminate r
  | stringify r force => Bank.stringify r force
  | integerify r => Bank.integerify r
  | realify r => Bank.realify r
  | numerify r => Bank.numerify r
  | cast r code => Bank.cast r code
  | integerAffinity r => discard (Bank.integerAffinity r)
  | applyNumericAffinity r tryInt => Bank.applyNumericAffinity r tryInt
  | applyAffinity r code => Bank.applyAffinity r code
  | shallowCopy r j loan => Bank.shallowCopy r j (some loan)
  | copyWhole r j => Bank.copyWhole r j
  | moveFrom r j => Bank.moveFrom r j
  | numericType r => discard (Bank.numericType r)
  | numericKind r => discard (Bank.numericKind r)
  | intValue r => discard (Bank.intValue r)
  | realValue r => discard (Bank.realValue r)
  | valueText r => discard (Bank.valueText r)
  | valueBytes r => discard (Bank.valueBytes r)

/-- The register that is changed, and the one that it takes its content from. -/
def registers : Rule → Nat × Nat
  | shallowCopy r j _ | copyWhole r j | moveFrom r j => (r, j)
  | clearExtern r | releaseExtern r | clearStorage r | release r | setNull r | setInteger r _ _ | setDouble r _
  | setText r _ | grow r _ _ | makeWriteable r | expandBlob r | nulTerminate r | stringify r _ | integerify r
  | realify r | numerify r | cast r _ | integerAffinity r | applyNumericAffinity r _ | applyAffinity r _
  | numericType r | numericKind r | intValue r | realValue r | valueText r | valueBytes r => (r, r)

def Inside (m : Rule) (n : Nat) : Prop := m.registers.1 < n ∧ m.registers.2 < n

/-- A rule leaves a register untidy: a buffer is given back whose room is kept, a string that is copied or borrowed gets
a second owner, a buffer without room is taken for an owner, or a number gets two kinds. -/
def Breaks (b : Bank) : Rule → Prop
  | clearStorage r | release r => (b.cellAt r).room ≠ 0
  | setInteger r _ _ => (b.cellAt r).flags ≠ .onlyInt ∧ (b.cellAt r).room ≠ 0
  | setDouble r x => x.isNaN = false ∧ (b.cellAt r).flags ≠ .onlyReal ∧ (b.cellAt r).room ≠ 0
  | grow r n _ => n = 0 ∧ (b.cellAt r).own.isSome = true ∧ (b.cellAt r).room = 0 ∧
      (b.cellAt r).flags.textual = true ∧ 0 < (b.cellAt r).size
  | makeWriteable r => (b.cellAt r).Doubles
  | shallowCopy r j _ => (b.cellAt r).Clashes (b.cellAt j)
  | applyNumericAffinity r tryInt => (b.cellAt r).Blurs tryInt
  | _ => False

end Rule

variable {m : Rule}

theorem Reshaped.outcome {p : Prop} (h : b.Reshaped r s b') (hs : b.Tidy → (s.Tidy ↔ ¬ p)) :
    b'.Frank ∧ b'.reach = b.reach ∧ (b.Tidy → (b'.Tidy ↔ ¬ p)) :=
  ⟨h.frank, h.reach, fun ht => ⟨fun ht' => (hs ht).mp (h.self ▸ ht' r), fun hp => h.tidy ht ((hs ht).mpr hp)⟩⟩

theorem Frank.rule_outcome (h : b.Frank) (hm : m.Inside b.reach) :
    (after m.run b).Frank ∧ (after m.run b).reach = b.reach ∧ (b.Tidy → ((after m.run b).Tidy ↔ ¬ m.Breaks b)) := by
  have hkept {x : BankM Unit} (hx : (tidying b.reach).Keeps x) :
      (after x b).Frank ∧ (after x b).reach = b.reach ∧ (b.Tidy → ((after x b).Tidy ↔ ¬ False)) := by
    obtain ⟨hfrank, hreach, htidy⟩ := hx b h rfl
    exact ⟨hfrank, hreach, fun ht => iff_of_true (htidy ht) not_false⟩
  cases m with
  | clearExtern r => exact hkept (tidying_clearExtern hm.1)
  | releaseExtern r => exact hkept (tidying_releaseExtern hm.1)
  | clearStorage r =>
    obtain ⟨b', hrun, hb'⟩ := h.clearStorage_run (r := r) hm.1
    rw [Rule.run, after_of_ok hrun]
    refine hb'.reshaped.outcome fun ht => ?_
    rw [show (b.cellAt r).released.emptied.shape = (b.cellAt r).released.shape.emptied from rfl, Cell.shape_released,
      Shape.tidy_emptied_iff (ht r).freed, Shape.room_freed, Rule.Breaks, not_not]
    rfl
  | release r =>
    obtain ⟨b', hrun, hb'⟩ := h.release_run (r := r) hm.1
    rw [Rule.run, after_of_ok hrun]
    refine hb'.outcome fun ht => ?_
    rw [Shape.tidy_released_iff (ht r), Rule.Breaks, not_not]
    rfl
  | setNull r => exact hkept (tidying_setNull hm.1)
  | setInteger r k constant =>
    exact (h.setInteger_after hm.1 k constant).outcome fun ht => Shape.tidy_claimed_iff (ht r) rfl rfl rfl
  | setDouble r x =>
    cases hx : x.isNaN with
    | true =>
      have hnull : Rule.run (.setDouble r x) = setNull r := by rw [Rule.run, setDouble, hx, if_pos rfl]
      rw [hnull, Rule.Breaks, hx]
      obtain ⟨hfrank, hreach, htidy⟩ := hkept (tidying_setNull hm.1)
      exact ⟨hfrank, hreach, fun ht => (htidy ht).trans (not_congr ⟨False.elim, fun hb => Bool.false_ne_true hb.1.symm⟩)⟩
    | false =>
      refine (h.setDouble_after hm.1 hx).outcome fun ht => (Shape.tidy_claimed_iff (ht r) rfl rfl rfl).trans ?_
      rw [Rule.Breaks, and_iff_right hx]
      rfl
  | setText r bytes => exact hkept (tidying_setText hm.1 bytes)
  | grow r k preserve =>
    obtain ⟨b', hrun, hb'⟩ := h.direct_run hm.1 fun name => Cell.grow name k preserve
    rw [show after (Rule.run (.grow r k preserve)) b = b' from after_of_ok hrun]
    exact hb'.outcome fun ht => Cell.tidy_grow_iff b.fresh k preserve (ht r)
  | makeWriteable r =>
    obtain ⟨s, hb', hs⟩ := h.makeWriteable_after hm.1
    exact hb'.outcome fun ht => hs (ht r)
  | expandBlob r => exact hkept (tidying_expandBlob hm.1)
  | nulTerminate r => exact hkept (tidying_nulTerminate hm.1)
  | stringify r force => exact hkept (tidying_stringify hm.1 force)
  | integerify r => exact hkept (tidying_integerify hm.1)
  | realify r => exact hkept (tidying_realify hm.1)
  | numerify r => exact hkept (tidying_numerify hm.1)
  | cast r code => exact hkept (tidying_cast hm.1 code)
  | integerAffinity r => exact hkept (tidying_integerAffinity hm.1).discard
  | applyNumericAffinity r tryInt =>
    obtain ⟨b', hrun, hb'⟩ := h.direct_run hm.1 fun _ => Cell.applyNumericAffinity tryInt
    rw [show after (Rule.run (.applyNumericAffinity r tryInt)) b = b' from after_of_ok hrun]
    exact hb'.outcome fun ht => Cell.tidy_applyNumericAffinity_iff tryInt (ht r)
  | applyAffinity r code => exact hkept (tidying_applyAffinity hm.1 code)
  | shallowCopy r j loan =>
    obtain ⟨s, hb', hs⟩ := h.shallowCopy_after hm.1 hm.2 loan
    exact hb'.outcome hs
  | copyWhole r j =>
    obtain ⟨b', hrun, hb'⟩ := h.copyWhole_run (r := r) (j := j) hm.1 hm.2
    rw [Rule.run, after_of_ok hrun]
    exact hb'.outcome fun ht => iff_of_true (ht j) not_false
  | moveFrom r j =>
    obtain ⟨hfrank, hreach, htidy⟩ := h.moveFrom_after hm.1 hm.2
    exact ⟨hfrank, hreach, fun ht => iff_of_true (htidy ht) not_false⟩
  | numericType r => exact hkept (tidying_numericType hm.1).discard
  | numericKind r => exact hkept (tidying_numericKind hm.1).discard
  | intValue r => exact hkept (tidying_intValue hm.1).discard
  | realValue r => exact hkept (tidying_realValue hm.1).discard
  | valueText r => exact hkept (tidying_valueText hm.1).discard
  | valueBytes r => exact hkept (tidying_valueBytes hm.1).discard

/-- The registers after one rule after the other; a rule that gives up leaves them as they are then. -/
def through (b : Bank) (ms : List Rule) : Bank := ms.foldl (fun b m => after m.run b) b

theorem through_take_succ {ms : List Rule} {k : Nat} (hk : ms[k]? = some m) :
    b.through (ms.take (k + 1)) = after m.run (b.through (ms.take k)) := by
  rw [List.take_add_one, hk, through, List.foldl_append]
  rfl

variable {ms : List Rule}

theorem Frank.through (h : b.Frank) (hms : ∀ m ∈ ms, m.Inside b.reach) :
    (b.through ms).Frank ∧ (b.through ms).reach = b.reach := by
  induction ms generalizing b with
  | nil => exact ⟨h, rfl⟩
  | cons m ms ih =>
    obtain ⟨hfrank, hreach, -⟩ := h.rule_outcome (hms m List.mem_cons_self)
    rw [← hreach]
    exact ih hfrank fun m' hm' => hreach ▸ hms m' (List.mem_cons_of_mem m hm')

theorem frank_ofCells (cells : Array Cell) (useCache indexed : Bool) (fresh : Nat) :
    (ofCells cells useCache indexed fresh).Frank := by
  refine ⟨Nat.le_refl _, fun hi => ?_⟩
  obtain rfl : indexed = true := hi
  refine ⟨_, keeps_ofCells cells useCache fresh, Nat.le_refl _, fun r _ => Fact.law_tame.nothing ?_⟩
  rw [Sheet.fact, Sheet.getD_blank]

theorem tidy_ofCells {cells : Array Cell} (h : ∀ c ∈ cells, c.shape.Tidy) (useCache indexed : Bool) (fresh : Nat) :
    (ofCells cells useCache indexed fresh).Tidy := by
  intro j
  rw [cellAt, Array.getD_eq_getD_getElem?]
  cases hc : (ofCells cells useCache indexed fresh).cells[j]? with
  | none => decide
  | some c => exact h c (Array.mem_of_getElem? hc)

/-- A text in a buffer of its own, and a register without a value. -/
def lender : Bank :=
  ofCells #[{ flags := .onlyStr, size := 3, data := some ⟨0, [97, 98, 99]⟩, own := some 0, room := 128 }, .null] true true 1

end Bank

end QueryMachine
