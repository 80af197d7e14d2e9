import Mathlib
import QueryMachine.Proofs.Effects

/-!
Reading and writing the cells of a bank. A write to a buffer is seen by the other cells that share it.
-/

namespace QueryMachine

theorem toNat_withZeros_mod (p : UInt64) (n : Int) :
    (Content.withZeros p n).toNat % 4294967296 = (UInt64.ofInt n).toNat % 4294967296 := by
  have hor := Nat.or_mod_two_pow (a := (p &&& 0xffffffff00000000).toNat)
    (b := (UInt64.ofInt n &&& 0xffffffff).toNat) (n := 32)
  have hhigh : (p &&& 0xffffffff00000000).toNat % 2 ^ 32 = 0 := by
    rw [UInt64.toNat_and, Nat.and_mod_two_pow]
    simp
  have hlow : (UInt64.ofInt n &&& 0xffffffff).toNat % 2 ^ 32 = (UInt64.ofInt n).toNat % 2 ^ 32 := by
    rw [UInt64.toNat_and, Nat.and_mod_two_pow]
    exact Nat.and_two_pow_sub_one_of_lt_two_pow (Nat.mod_lt _ (by norm_num))
  rw [Content.withZeros, UInt64.toNat_or]
  rw [hhigh, hlow, Nat.zero_or] at hor
  exact hor

theorem wrapHalf_withZeros (p : UInt64) (n : Int) : wrapHalf (Content.withZeros p n).toNat = wrapHalf n := by
  have hmod := toNat_withZeros_mod p n
  have hword : ((UInt64.ofInt n).toNat : Int) % 4294967296 = n % 4294967296 := by
    simp only [UInt64.ofInt, UInt64.toNat_ofNat']
    omega
  have hmod' : ((Content.withZeros p n).toNat : Int) % 4294967296 = n % 4294967296 := by
    omega
  simp only [wrapHalf]
  rw [← Int.emod_bmod, ← Int.emod_bmod n]
  exact congrArg (Int.bmod · 4294967296) hmod'

theorem zeros_withZeros (p : UInt64) (c : Content) :
    wrapHalf (Content.withZeros p c.zeros).toNat = c.zeros := by
  rw [wrapHalf_withZeros]
  simp only [wrapHalf, Content.zeros, Int.bmod_bmod]

namespace Cell

def withFlags (c : Cell) (flags : Flags) : Cell := { c with flags }

def withPayload (c : Cell) (payload : UInt64) : Cell := { c with payload }

theorem seeing_of_none (c : Cell) {d : Cell} (h : d.data = none) : c.seeing d = d := by
  unfold seeing
  rw [h]
  cases c.data <;> rfl

/-- The string of `d` does not lie in the own buffer of `c`. -/
def Apart (c d : Cell) : Prop := ∀ b, d.data = some b → c.own ≠ some b.name

theorem apart_of_own {c : Cell} (h : c.own = none) (d : Cell) : c.Apart d := by
  intro b _ hown
  rw [h] at hown
  cases hown

theorem seeing_of_overwrites {c old d : Cell} (h : c.overwrites old = true) (hd : old.Apart d) :
    c.seeing d = d := by
  simp only [overwrites, isOwner, Bool.and_eq_true, beq_iff_eq] at h
  obtain ⟨⟨⟨_, hown⟩, howner⟩, _⟩ := h
  unfold seeing
  cases hc : c.data with
  | none => rfl
  | some b =>
    cases hs : d.data with
    | none => rfl
    | some shared =>
      have hne : b.name ≠ shared.name := by
        intro hname
        apply hd shared hs
        rw [hown, ← howner, hc, Option.map_some, hname]
      simp [hne]

theorem flags_seeing (c d : Cell) : (c.seeing d).flags = d.flags := by
  unfold seeing
  split
  · split <;> rfl
  · rfl

theorem payload_seeing (c d : Cell) : (c.seeing d).payload = d.payload := by
  unfold seeing
  split
  · split <;> rfl
  · rfl

theorem own_seeing (c d : Cell) : (c.seeing d).own = d.own := by
  unfold seeing
  split
  · split <;> rfl
  · rfl

end Cell

namespace Bank

variable {b : Bank} {i : Nat}

/-- The cell with a number; an empty one where there is none. -/
def cellAt (b : Bank) (i : Nat) : Cell := b.cells.getD i {}

def withCell (b : Bank) (i : Nat) (c : Cell) : Bank :=
  { b with cells := b.cells.setIfInBounds i c }

theorem cell_run (b : Bank) (i : Nat) : cell i b = .ok (b.cellAt i) b := rfl

theorem setCell_run (b : Bank) (i : Nat) (c : Cell) : setCell i c b = .ok () (b.withCell i c) := rfl

theorem modifyCell_run (b : Bank) (i : Nat) (f : Cell → Cell) :
    modifyCell i f b = .ok () (b.withCell i (f (b.cellAt i))) := rfl

theorem slot_run {i : Int} (hi : 0 ≤ i) : slot i b = .ok i.toNat b := by
  simp [slot, bind, EStateM.bind, get_run, pure_run, hi]

theorem register_run {i : Int} (h0 : 0 ≤ i) (hi : i < b.reach) : register i b = .ok i.toNat b := by
  simp only [register, bind_of_ok get_run, wrapIndex?, h0, hi, if_true]
  rfl

theorem cellAt_withCell (hi : i < b.cells.size) (j : Nat) (c : Cell) :
    (b.withCell i c).cellAt j = if i = j then c else b.cellAt j := by
  simp only [cellAt, withCell, Array.getD_eq_getD_getElem?, Array.getElem?_setIfInBounds]
  split <;> simp_all

theorem cellAt_withCell_self (hi : i < b.cells.size) (c : Cell) : (b.withCell i c).cellAt i = c := by
  rw [cellAt_withCell hi, if_pos rfl]

@[simp] theorem withCell_withCell (b : Bank) (i : Nat) (c d : Cell) :
    (b.withCell i c).withCell i d = b.withCell i d := by
  simp [withCell]

@[simp] theorem withCell_cellAt (b : Bank) (i : Nat) : b.withCell i (b.cellAt i) = b := by
  have : b.cells.setIfInBounds i (b.cells.getD i {}) = b.cells := by
    apply Array.ext
    · simp
    · intro j hj _
      rw [Array.getElem_setIfInBounds]
      split
      · rename_i hij
        subst hij
        simp_all
      · rfl
  simp only [withCell, cellAt, this]

@[simp] theorem size_withCell (b : Bank) (i : Nat) (c : Cell) :
    (b.withCell i c).cells.size = b.cells.size := by
  simp [withCell]

@[simp] theorem holder_withCell (b : Bank) (i : Nat) (c : Cell) :
    (b.withCell i c).holder = b.holder := rfl

/-- The bank after the string of a cell may have been written. -/
def put (b : Bank) (i : Nat) (c : Cell) : Bank :=
  if c.overwrites (b.cellAt i) then
    { b.withCell i c with
      cells := (b.withCell i c).cells.mapIdx fun j d => if j = i then d else c.seeing d }
  else b.withCell i c

theorem putCell_run (b : Bank) (i : Nat) (c : Cell) : putCell i c b = .ok () (b.put i c) := by
  simp only [putCell, bind_of_ok (cell_run b i), bind_of_ok (setCell_run b i c), put]
  split <;> rfl

/-- The bank after a name for a buffer has been taken. -/
def renewed (b : Bank) : Bank := { b with fresh := b.fresh + 1 }

theorem freshName_run (b : Bank) : freshName b = .ok b.fresh b.renewed := rfl

theorem modifyCellWith_run (b : Bank) (i : Nat) (f : Nat → Cell → Cell) :
    modifyCellWith i f b =
      .ok () (b.renewed.put i (f b.fresh (b.cellAt i))) := by
  rw [modifyCellWith, bind_of_ok (freshName_run b), bind_of_ok (cell_run _ i), putCell_run]
  rfl

theorem put_cellAt (b : Bank) (i : Nat) : b.put i (b.cellAt i) = b := by
  have hkeeps : (b.cellAt i).overwrites (b.cellAt i) = false := by simp [Cell.overwrites]
  rw [put, hkeeps, if_neg Bool.false_ne_true, withCell_cellAt]

@[simp] theorem size_put (b : Bank) (i : Nat) (c : Cell) : (b.put i c).cells.size = b.cells.size := by
  unfold put
  split <;> simp [withCell]

@[simp] theorem holder_put (b : Bank) (i : Nat) (c : Cell) : (b.put i c).holder = b.holder := by
  unfold put
  split <;> rfl

@[simp] theorem ledger_put (b : Bank) (i : Nat) (c : Cell) : (b.put i c).ledger = b.ledger := by
  unfold put
  split <;> rfl

@[simp] theorem indexed_put (b : Bank) (i : Nat) (c : Cell) : (b.put i c).indexed = b.indexed := by
  unfold put
  split <;> rfl

@[simp] theorem reach_put (b : Bank) (i : Nat) (c : Cell) : (b.put i c).reach = b.reach := by
  unfold put
  split <;> rfl

@[simp] theorem fresh_put (b : Bank) (i : Nat) (c : Cell) : (b.put i c).fresh = b.fresh := by
  unfold put
  split <;> rfl

theorem cellAt_put (hi : i < b.cells.size) (j : Nat) (c : Cell) :
    (b.put i c).cellAt j =
      if i = j then c
      else if c.overwrites (b.cellAt i) then c.seeing (b.cellAt j) else b.cellAt j := by
  have hset := cellAt_withCell hi j c
  unfold put
  by_cases ho : c.overwrites (b.cellAt i) = true
  · rw [if_pos ho, if_pos ho]
    have hmap (cells : Array Cell) :
        (cells.mapIdx fun j d => if j = i then d else c.seeing d).getD j {} =
          if i = j then cells.getD j {} else c.seeing (cells.getD j {}) := by
      rw [Array.getD_eq_getD_getElem?, Array.getD_eq_getD_getElem?, Array.getElem?_mapIdx]
      cases cells[j]? with
      | none => simp [Cell.seeing_of_none c (d := {}) rfl]
      | some d => simp [eq_comm]
    rw [cellAt, hmap]
    by_cases hij : i = j
    · rw [if_pos hij] at hset
      rw [if_pos hij, if_pos hij]
      exact hset
    · rw [if_neg hij] at hset
      rw [if_neg hij, if_neg hij]
      exact congrArg c.seeing hset
  · rw [if_neg ho, if_neg ho]
    exact hset

theorem cellAt_put_apart (hi : i < b.cells.size) {j : Nat} (hij : i ≠ j) {c : Cell}
    (hne : (b.cellAt i).Apart (b.cellAt j)) : (b.put i c).cellAt j = b.cellAt j := by
  rw [cellAt_put hi, if_neg hij]
  split
  · rename_i ho
    exact Cell.seeing_of_overwrites ho hne
  · rfl

theorem own_cellAt_put (hi : i < b.cells.size) {j : Nat} (hij : i ≠ j) (c : Cell) :
    ((b.put i c).cellAt j).own = (b.cellAt j).own := by
  rw [cellAt_put hi, if_neg hij]
  split
  · exact Cell.own_seeing c _
  · rfl

/-- The bank becomes `b'` by writing one cell, which may have been given a new buffer. -/
structure Writes (b : Bank) (i : Nat) (b' : Bank) : Prop where
  size : b'.cells.size = b.cells.size
  fresh : b.fresh ≤ b'.fresh
  apart : ∀ j, i ≠ j → (b.cellAt i).Apart (b.cellAt j) → b'.cellAt j = b.cellAt j
  own : ∀ j, (b'.cellAt j).own = (b.cellAt j).own ∨ (b'.cellAt j).own = some b.fresh

theorem writes_modifyCell (hi : i < b.cells.size) {f : Cell → Cell}
    (hf : (f (b.cellAt i)).own = (b.cellAt i).own) : b.Writes i (b.withCell i (f (b.cellAt i))) where
  size := size_withCell b i _
  fresh := le_rfl
  apart j hij _ := by rw [cellAt_withCell hi, if_neg hij]
  own j := by
    rw [cellAt_withCell hi]
    split
    · rename_i hij
      exact .inl (hij ▸ hf)
    · exact .inl rfl

theorem writes_modifyCellWith (hi : i < b.cells.size) {f : Nat → Cell → Cell}
    (hf : (f b.fresh (b.cellAt i)).own = (b.cellAt i).own ∨
      (f b.fresh (b.cellAt i)).own = some b.fresh) :
    b.Writes i (b.renewed.put i (f b.fresh (b.cellAt i))) where
  size := size_put _ i _
  fresh := by rw [fresh_put]; exact Nat.le_succ _
  apart j hij hne := cellAt_put_apart (b := b.renewed) hi hij hne
  own j := by
    by_cases hij : i = j
    · subst hij
      rw [cellAt_put (b := b.renewed) hi, if_pos rfl]
      exact hf
    · exact .inl (own_cellAt_put (b := b.renewed) hi hij _)

/-! Banks about whose registers nothing is noted. -/

theorem flags_unindexed (hb : b.indexed = false) (i : Nat) : flags i b = .ok (b.cellAt i).flags b := by
  rw [flags, bind_of_ok (cell_run b i), bind_of_ok get_run, hb]
  rfl

theorem setFlags_unindexed (hb : b.indexed = false) (i : Nat) (g : Flags) :
    setFlags i g b = .ok () (b.withCell i ((b.cellAt i).withFlags g)) := by
  rw [setFlags, noteFlags, bind_of_ok get_run, hb]
  rfl

theorem int_unindexed (hb : b.indexed = false) (i : Nat) : int i b = .ok (b.cellAt i).int b := by
  rw [int, bind_of_ok (cell_run b i), bind_of_ok get_run, hb]
  rfl

theorem real_unindexed (hb : b.indexed = false) (i : Nat) : real i b = .ok (.real (b.cellAt i).real) b := by
  rw [real, bind_of_ok (cell_run b i), bind_of_ok get_run, hb]
  rfl

theorem setInt_unindexed (hb : b.indexed = false) (i : Nat) {n : Int} (hn : fitsWord n = true) (constant : Bool) :
    setInt i n constant b = .ok () (b.withCell i ((b.cellAt i).withPayload (intToWord n))) := by
  have hindexed (c : Cell) : (b.withCell i c).indexed = false := hb
  simp only [setInt, hn, Bool.not_true, Bool.false_eq_true, if_false]
  rw [bind_of_ok (modifyCell_run b i _), bind_of_ok get_run, hindexed]
  rfl

theorem setReal_unindexed (hb : b.indexed = false) (i : Nat) (x : Number) (constant : Bool) :
    setReal i x constant b = .ok () (b.withCell i ((b.cellAt i).withPayload x.toDouble.bits)) := by
  have hindexed (c : Cell) : (b.withCell i c).indexed = false := hb
  rw [setReal, bind_of_ok (modifyCell_run b i _), bind_of_ok get_run, hindexed]
  rfl

theorem invalidate_unindexed (hb : b.indexed = false) (i : Nat) : invalidate i b = .ok () b := by
  rw [invalidate, bind_of_ok get_run, hb]
  rfl

end Bank

end QueryMachine
