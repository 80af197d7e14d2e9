import Mathlib
import QueryMachine.Proofs.Overflow
import QueryMachine.Proofs.Seeking

/-!
Numbers for new rows. A number behind the last row is free. When there is none, numbers are drawn at random, and a search
tells which of them are free. A counter in a register only goes up, so there nothing is drawn.
-/

namespace QueryMachine

/-- A search for a row number finds the row if there is one. -/
def Tree.Finds (t : Tree) : Prop :=
  ∀ key, (Position.seek t (Tree.orderOfKey key) false).1 = some .eq ↔ key ∈ t.rowids

namespace Position

variable {t : Tree} {p : Position} {key : ℤ}

/-- What a position says about a table is true: the number that was read last is that of a row, and a position that is known
to be the last one stands on the last row. -/
structure Exact (t : Tree) (p : Position) : Prop where
  noted : p.isHere = true → ∀ k, p.noted = some k → k ∈ t.rowids
  last : p.isHere = true → p.atLast = true → IsGreatest t.rowids (p.note t).1 ∧ ∀ k, p.noted = some k → k = (p.note t).1

theorem exact_of_plain (hnoted : p.noted = none) (hlast : p.atLast = false) : p.Exact t := by
  refine ⟨fun _ k hk => ?_, fun _ hp => ?_⟩
  · rw [hnoted] at hk
    cases hk
  · rw [hlast] at hp
    cases hp

theorem exact_of_seek (t : Tree) (order : Entry → Option Ordering) (fromLast : Bool) : (seek t order fromLast).2.Exact t := by
  rw [seek]
  cases t.search order fromLast <;> exact exact_of_plain rfl rfl

theorem Exact.seekKey (h : p.Exact t) (hfinds : t.Finds) (key : ℤ) :
    ∃ o q, p.seekKey t key false = (some o, q) ∧ (o = .eq ↔ key ∈ t.rowids) ∧ q.Exact t := by
  have hseek : ∃ o q, seek t (Tree.orderOfKey key) false = (some o, q) ∧ (o = .eq ↔ key ∈ t.rowids) ∧ q.Exact t := by
    obtain ⟨o, q, hrun, -⟩ := seekKey_cases t key {}
    have hrun : seek t (Tree.orderOfKey key) false = (some o, q) := hrun
    have hfound := hfinds key
    have hexact := exact_of_seek t (Tree.orderOfKey key) false
    rw [hrun] at hfound hexact
    exact ⟨o, q, hrun, by rw [← hfound, Option.some.injEq], hexact⟩
  rw [Position.seekKey]
  split
  · rename_i k hhere hk
    split
    · rename_i heq
      exact ⟨.eq, p, rfl, by simpa using heq ▸ h.noted hhere k hk, h⟩
    · split
      · rename_i hne hpast
        rw [Bool.and_eq_true, decide_eq_true_eq] at hpast
        obtain ⟨hgreatest, hnoted⟩ := h.last hhere hpast.1
        refine ⟨.lt, p, rfl, iff_of_false Ordering.noConfusion fun hmem => ?_, h⟩
        have hle := hgreatest.2 hmem
        rw [← hnoted k hk] at hle
        omega
      · exact hseek
  · exact hseek

theorem note_cases (t : Tree) (p : Position) :
    (p.note t).2 = p ∧ p.fresh = true ∧ p.noted = some (p.note t).1 ∨
      p.note t = (p.number t, { p with noted := some (p.number t), fresh := true }) := by
  rw [note]
  split
  · rename_i k hfresh hk
    exact .inl ⟨rfl, hfresh, hk⟩
  · exact .inr rfl

theorem noted_note (t : Tree) (p : Position) : (p.note t).2.noted = some (p.note t).1 := by
  obtain ⟨heq, -, hk⟩ | heq := note_cases t p
  · rwa [heq]
  · rw [heq]

theorem note_note (t : Tree) (p : Position) : ((p.note t).2.note t).1 = (p.note t).1 := by
  have hfresh : (p.note t).2.fresh = true := by
    obtain ⟨heq, hfresh, -⟩ | heq := note_cases t p
    · rwa [heq]
    · rw [heq]
  rw [note, hfresh, noted_note]

theorem Exact.note (h : p.Exact t) (hhere : p.isHere = true) (hlast : p.atLast = true) : (p.note t).2.Exact t := by
  obtain ⟨hgreatest, -⟩ := h.last hhere hlast
  have hnoted (k : ℤ) (hk : (p.note t).2.noted = some k) : k = (p.note t).1 := by
    rw [noted_note, Option.some.injEq] at hk
    exact hk.symm
  refine ⟨fun _ k hk => ?_, fun _ _ => ?_⟩
  · rw [hnoted k hk]
    exact hgreatest.1
  · rw [note_note]
    exact ⟨hgreatest, hnoted⟩

theorem Exact.last_cases (h : p.Exact t) (htable : t.isTable = true) (hs : t.Ascending) :
    (t.rowids = ∅ ∧ (p.last t).isHere = false) ∨
      (p.last t).isHere = true ∧ (p.last t).atLast = true ∧ (p.last t).Exact t := by
  rw [Position.last]
  split
  · rename_i hhere
    rw [Bool.and_eq_true] at hhere
    exact .inr ⟨hhere.1, hhere.2, h⟩
  · split
    · rename_i hempty
      rw [List.isEmpty_iff] at hempty
      exact .inl ⟨by simp [Tree.rowids, hempty], rfl⟩
    · rename_i hsome
      rw [List.isEmpty_iff] at hsome
      have hlt : t.entries.length - 1 < t.entries.length := Nat.sub_one_lt (by simpa using hsome)
      have he := List.getElem?_eq_getElem hlt
      have hnumber : (Position.note t { place := .here, index := t.entries.length - 1, atLast := true }).1 =
          t.entries[t.entries.length - 1].key := by
        show number t _ = _
        rw [number, if_pos htable]
        show (t.entry _).key = _
        rw [Tree.entry, List.getD_eq_getElem?_getD, he]
        rfl
      have hnone (k : ℤ) (P : Prop) (hk : none = some k) : P := by cases hk
      refine .inr ⟨rfl, rfl, fun _ k hk => hnone k _ hk, fun _ _ => ⟨?_, fun k hk => hnone k _ hk⟩⟩
      rw [hnumber]
      refine ⟨⟨_, List.getElem_mem hlt, rfl⟩, fun k hk => ?_⟩
      obtain rfl | ⟨hle, -⟩ | ⟨-, e', he', -⟩ := hs.neighbours he hk
      · exact le_rfl
      · exact hle.le
      · rw [List.getElem?_eq_none (by omega)] at he'
        cases he'

end Position

namespace Machine

open Bank

variable {m : Machine} {c : Cursor} {t : Tree} {i : Int}

def candidate (m : Machine) (k : Nat) : ℤ := m.draws k % 4611686018427387904 + 1

theorem fitsWord_candidate (m : Machine) (k : Nat) : fitsWord (m.candidate k) = true := by
  rw [candidate, fitsWord_iff]
  omega

/-- A cursor is open on a table, and its searches find exactly the rows that are there. -/
structure Searches (m : Machine) (i : Int) (c : Cursor) (t : Tree) : Prop where
  opens : m.Opens i c
  tree : m.treeOf? c = some t
  table : t.isTable = true
  ascending : t.Ascending
  finds : t.Finds
  exact : c.position.Exact t

theorem Searches.seekRow_run (h : m.Searches i c t) (key : ℤ) :
    ∃ o q, seekRow i c key m = .ok (some o) (m.withCursor i { c with position := q }) ∧ (o = .eq ↔ key ∈ t.rowids) ∧
      q.Exact t := by
  obtain ⟨o, q, hseek, hfound, hq⟩ := h.exact.seekKey h.finds key
  refine ⟨o, q, ?_, hfound, hq⟩
  simp only [seekRow, seekCursor, bind_of_ok get_run, h.tree, hseek]
  rw [moveCursor, bind_of_ok (h.opens.setCursor_run _)]
  rfl

/-- The machine after `n` draws, the last of which has left the cursor at a position. -/
def drew (m : Machine) (i : Int) (c : Cursor) (n : Nat) (q : Position) : Machine :=
  { m with drawn := m.drawn + n }.withCursor i { c with position := q }

theorem drew_drew (m : Machine) (i : Int) (c : Cursor) (n n' : Nat) (q q' : Position) :
    (m.drew i c n q).drew i { c with position := q } n' q' = m.drew i c (n + n') q' := by
  simp only [drew, withCursor, Array.setIfInBounds_setIfInBounds, Nat.add_assoc]

theorem Searches.drew (h : m.Searches i c t) (n : Nat) {q : Position} (hq : q.Exact t) :
    (m.drew i c n q).Searches i { c with position := q } t :=
  ⟨h.opens.withCursor (m := { m with drawn := m.drawn + n }) _, h.tree, h.table, h.ascending, h.finds, hq⟩

theorem Searches.draw_run (h : m.Searches i c t) (fuel : Nat) :
    ∃ q, q.Exact t ∧
      (m.candidate m.drawn ∈ t.rowids → Direct.drawFree i (fuel + 1) m = Direct.drawFree i fuel (m.drew i c 1 q)) ∧
      (m.candidate m.drawn ∉ t.rowids → Direct.drawFree i (fuel + 1) m = .ok (.ok (m.candidate m.drawn)) (m.drew i c 1 q)) := by
  have hdraw : Direct.drawRowid m = .ok (m.candidate m.drawn) { m with drawn := m.drawn + 1 } := rfl
  have h₁ : Searches { m with drawn := m.drawn + 1 } i c t := ⟨h.opens, h.tree, h.table, h.ascending, h.finds, h.exact⟩
  obtain ⟨o, q, hseek, hfound, hq⟩ := h₁.seekRow_run (m.candidate m.drawn)
  refine ⟨q, hq, fun hmem => ?_, fun hfree => ?_⟩
  · obtain rfl := hfound.mpr hmem
    rw [Direct.drawFree, bind_of_ok hdraw, bind_of_ok h₁.opens.cursor_run, bind_of_ok hseek]
    rfl
  · rw [Direct.drawFree, bind_of_ok hdraw, bind_of_ok h₁.opens.cursor_run, bind_of_ok hseek]
    cases o with
    | eq => exact absurd (hfound.mp rfl) hfree
    | lt | gt => rfl

theorem Searches.drawFree_run (h : m.Searches i c t) (fuel : Nat) :
    ∃ found n q, Direct.drawFree i fuel m = .ok found (m.drew i c n q) ∧
      (n = fuel ∧ found = .error codeFull ∧ (∀ k < fuel, m.candidate (m.drawn + k) ∈ t.rowids) ∨
        ∃ k < fuel, n = k + 1 ∧ found = .ok (m.candidate (m.drawn + k)) ∧ m.candidate (m.drawn + k) ∉ t.rowids) := by
  induction fuel generalizing m c with
  | zero =>
    refine ⟨.error codeFull, 0, c.position, ?_, .inl ⟨rfl, rfl, fun k hk => absurd hk k.not_lt_zero⟩⟩
    have hsame : m.drew i c 0 c.position = m := h.opens.withCursor_self
    rw [hsame]
    rfl
  | succ fuel ih =>
    obtain ⟨q, hq, htaken, hfree⟩ := h.draw_run fuel
    by_cases hmem : m.candidate m.drawn ∈ t.rowids
    · obtain ⟨found, n, q', hrest, hcases⟩ := ih (h.drew 1 hq)
      refine ⟨found, 1 + n, q', by rw [htaken hmem, hrest, drew_drew], ?_⟩
      have hlater (k : Nat) : (m.drew i c 1 q).candidate ((m.drew i c 1 q).drawn + k) = m.candidate (m.drawn + (k + 1)) := by
        rw [Nat.add_comm k 1, ← Nat.add_assoc]
        rfl
      simp only [hlater] at hcases
      obtain ⟨rfl, hfull, hall⟩ | ⟨k, hk, rfl, hfound, hnot⟩ := hcases
      · refine .inl ⟨Nat.add_comm 1 n, hfull, fun k hk => ?_⟩
        cases k with
        | zero => exact hmem
        | succ k => exact hall k (Nat.lt_of_succ_lt_succ hk)
      · exact .inr ⟨k + 1, Nat.succ_lt_succ hk, Nat.add_comm 1 (k + 1), hfound, hnot⟩
    · exact ⟨_, 1, q, hfree hmem, .inr ⟨0, Nat.succ_pos fuel, rfl, rfl, hmem⟩⟩

/-- The number behind the last row, unless that row has the largest one. -/
theorem Searches.nextRowid_run (h : m.Searches i c t) (hfits : ∀ k ∈ t.rowids, fitsWord k = true)
    (hrandom : c.randomRowid = false) :
    ∃ v q random, Direct.nextRowid i m = .ok (.ok v) (m.withCursor i { c with position := q, randomRowid := random }) ∧
      q.Exact t ∧ fitsWord v = true ∧ (random = true ↔ maxRowid ∈ t.rowids) ∧ (random = false → ∀ k ∈ t.rowids, k < v) := by
  obtain ⟨hempty, hnot⟩ | ⟨hhere, hlast, hexact⟩ := h.exact.last_cases h.table h.ascending
  · refine ⟨1, c.position.last t, false, ?_, ?_, rfl, by simp [hempty], by simp [hempty]⟩
    · rw [Direct.nextRowid, bind_of_ok h.opens.cursor_run, bind_of_ok get_run]
      simp only [h.tree, hnot, Bool.false_eq_true, if_false]
      rw [moveCursor, bind_of_ok (h.opens.setCursor_run _), ← hrandom]
      rfl
    · refine ⟨fun hhere => ?_, fun hhere => ?_⟩ <;> rw [hnot] at hhere <;> cases hhere
  · obtain ⟨hgreatest, -⟩ := hexact.last hhere hlast
    have hq := hexact.note hhere hlast
    have hrun : Direct.nextRowid i m = .ok (.ok (if maxRowid ≤ ((c.position.last t).note t).1
          then ((c.position.last t).note t).1 else ((c.position.last t).note t).1 + 1))
        (m.withCursor i { c with
          position := ((c.position.last t).note t).2
          randomRowid := maxRowid ≤ ((c.position.last t).note t).1 }) := by
      rw [Direct.nextRowid, bind_of_ok h.opens.cursor_run, bind_of_ok get_run]
      simp only [h.tree, hhere, if_true]
      rw [moveCursor, bind_of_ok (h.opens.setCursor_run _)]
      rfl
    generalize (c.position.last t).note t = r at hgreatest hq hrun
    have hfit := fitsWord_iff.mp (hfits _ hgreatest.1)
    refine ⟨_, r.2, _, hrun, hq, ?_⟩
    by_cases hmax : maxRowid ≤ r.1
    · have hlargest : r.1 = maxRowid := le_antisymm hfit.2 hmax
      simp only [if_pos hmax, decide_eq_true hmax, Bool.true_eq_false, false_implies, and_true, true_iff]
      exact ⟨hfits _ hgreatest.1, hlargest ▸ hgreatest.1⟩
    · simp only [if_neg hmax, decide_eq_false hmax, Bool.false_eq_true, true_implies, false_iff]
      refine ⟨fitsWord_iff.mpr ?_, fun hmem => hmax (hgreatest.2 hmem), fun k hk => Int.lt_add_one_of_le (hgreatest.2 hk)⟩
      have hlt : r.1 < 9223372036854775807 := not_le.mp hmax
      omega

/-- A row number is asked for: the cursor is open on a table with exact searches, and the register that counts, if there is
one, holds an integer. -/
structure Numbers (m : Machine) (i : Instruction) (c : Cursor) (t : Tree) : Prop extends m.Searches i.p1 c t where
  fits : ∀ k ∈ t.rowids, fitsWord k = true
  result : 0 ≤ i.p2 ∧ i.p2.toNat < m.bank.cells.size
  counter : i.p3 ≠ 0 → 0 ≤ i.p3 ∧ i.p3.toNat < m.bank.cells.size ∧ (m.bank.cellAt i.p3.toNat).flags.int = true

variable {i : Instruction} {v : ℤ}

theorem int_integerify {c : Cell} (h : c.flags.int = true) : c.integerify.int = c.int := by
  rw [Cell.integerify, Content.int, Cell.intValue, if_pos h]
  exact congrArg wordToInt (intToWord_wordToInt c.payload)

theorem Numbers.aboveCounter_run (h : m.Numbers i c t) (hi : i.p3 ≠ 0) {m₁ : Machine} {d : Cursor} (hd : m₁.Opens i.p1 d)
    (hbank : m₁.bank = m.bank) (v : ℤ) :
    ∃ found b, Direct.aboveCounter i v m₁ = .ok found (m₁.withBank b) ∧ b.cells.size = m.bank.cells.size ∧
      (found = .error codeFull ∧ ((m.bank.cellAt i.p3.toNat).int = maxRowid ∨ d.randomRowid = true) ∨
        found = .ok (max v ((m.bank.cellAt i.p3.toNat).int + 1)) ∧ (m.bank.cellAt i.p3.toNat).int ≠ maxRowid ∧
          d.randomRowid = false ∧
          (b.cellAt i.p3.toNat).payload = intToWord (max v ((m.bank.cellAt i.p3.toNat).int + 1))) := by
  obtain ⟨hnonneg, hlt, hint⟩ := h.counter hi
  let b₁ := m.bank.withCell i.p3.toNat (m.bank.cellAt i.p3.toNat).integerify
  have hsize : b₁.cells.size = m.bank.cells.size := size_withCell _ _ _
  have hvalue : (b₁.cellAt i.p3.toNat).int = (m.bank.cellAt i.p3.toNat).int := by
    rw [cellAt_withCell_self hlt, int_integerify hint]
  have hopens : (m₁.withBank b₁).Opens i.p1 d := hd
  have hmodify : (liftM (modifyCell i.p3.toNat Cell.integerify) : MachineM Unit) m₁ = .ok () (m₁.withBank b₁) :=
    lift_of_ok (by rw [hbank]; exact modifyCell_run _ _ _)
  have hread : (liftM (cell i.p3.toNat) : MachineM Cell) (m₁.withBank b₁) = .ok (b₁.cellAt i.p3.toNat) (m₁.withBank b₁) :=
    lift_of_read (cell_run _ _)
  rw [Direct.aboveCounter, if_neg hi, bind_of_ok (lift_of_read (slot_run hnonneg)), bind_of_ok hmodify, bind_of_ok hread,
    bind_of_ok hopens.cursor_run, hvalue]
  by_cases hfull : (m.bank.cellAt i.p3.toNat).int = maxRowid ∨ d.randomRowid = true
  · rw [if_pos (by simpa using hfull)]
    exact ⟨_, b₁, rfl, hsize, .inl ⟨rfl, hfull⟩⟩
  · rw [if_neg (by simpa using hfull)]
    rw [not_or, Bool.not_eq_true] at hfull
    refine ⟨_, _, bind_of_ok (lift_of_ok (modifyCell_run _ _ _)), ?_, .inr ⟨rfl, hfull.1, hfull.2, ?_⟩⟩
    · rw [size_withCell, bank_withBank, hsize]
    · rw [bank_withBank, cellAt_withCell_self (by rwa [hsize])]

/-- What becomes of the number behind the last row. -/
def chooseRowid (i : Instruction) (v : ℤ) : MachineM (Except Nat ℤ) := do
  match ← Direct.aboveCounter i v with
  | .error code => return .error code
  | .ok v => if (← cursor i.p1).randomRowid then Direct.drawFree i.p1 100 else return .ok v

/-- The number behind the last row is looked up first, unless numbers are drawn already. -/
theorem Numbers.freeRowid_eq (h : m.Numbers i c t) :
    ∃ v d, Direct.freeRowid i m = chooseRowid i v (m.withCursor i.p1 d) ∧
      (m.withCursor i.p1 d).Searches i.p1 d t ∧ fitsWord v = true ∧
      (d.randomRowid = true ↔ maxRowid ∈ t.rowids ∨ c.randomRowid = true) ∧
      (d.randomRowid = false → ∀ k ∈ t.rowids, k < v) := by
  rw [Direct.freeRowid, bind_of_ok h.opens.cursor_run]
  cases hrandom : c.randomRowid with
  | true =>
    refine ⟨0, c, ?_, ?_, rfl, by simp [hrandom], by simp [hrandom]⟩
    · rw [h.opens.withCursor_self]
      rfl
    · rw [h.opens.withCursor_self]
      exact h.toSearches
  | false =>
    obtain ⟨v, q, random, hrun, hq, hfits, hmax, hlt⟩ := h.nextRowid_run h.fits hrandom
    exact ⟨v, { c with position := q, randomRowid := random }, bind_of_ok hrun,
      ⟨h.opens.withCursor _, h.tree, h.table, h.ascending, h.finds, hq⟩, hfits, by simpa using hmax, hlt⟩

theorem Numbers.freeRowid_of_next (h : m.Numbers i c t) (hi : i.p3 = 0) :
    ∃ found m₁ d, Direct.freeRowid i m = .ok found m₁ ∧ m₁.Opens i.p1 d ∧ m₁.bank = m.bank ∧
      (¬ (maxRowid ∈ t.rowids ∨ c.randomRowid = true) ∧ m₁.drawn = m.drawn ∧
          (∃ v, found = .ok v ∧ fitsWord v = true ∧ v ∉ t.rowids) ∨
        (maxRowid ∈ t.rowids ∨ c.randomRowid = true) ∧ m.drawn < m₁.drawn ∧
          (found = .error codeFull ∧ (∀ k < 100, m.candidate (m.drawn + k) ∈ t.rowids) ∨
            ∃ k < 100, found = .ok (m.candidate (m.drawn + k)) ∧ m.candidate (m.drawn + k) ∉ t.rowids)) := by
  obtain ⟨v, d, hrun, hd, hfits, hdrawn, hlt⟩ := h.freeRowid_eq
  have habove : Direct.aboveCounter i v (m.withCursor i.p1 d) = .ok (.ok v) (m.withCursor i.p1 d) := by
    rw [Direct.aboveCounter, if_pos hi]
    rfl
  have hchoose : Direct.freeRowid i m =
      (if d.randomRowid then Direct.drawFree i.p1 100 else pure (.ok v)) (m.withCursor i.p1 d) := by
    rw [hrun, chooseRowid, bind_of_ok habove]
    exact bind_of_ok hd.opens.cursor_run
  rw [hchoose, ← hdrawn]
  cases hrandom : d.randomRowid with
  | false =>
    refine ⟨.ok v, m.withCursor i.p1 d, d, rfl, hd.opens, rfl, .inl ⟨Bool.false_ne_true, rfl, v, rfl, hfits, fun hmem => ?_⟩⟩
    exact lt_irrefl v (hlt hrandom v hmem)
  | true =>
    obtain ⟨found, n, q, hrun, hcases⟩ := hd.drawFree_run 100
    refine ⟨found, (m.withCursor i.p1 d).drew i.p1 d n q, { d with position := q }, hrun, ?_, rfl, .inr ⟨rfl, ?_, ?_⟩⟩
    · exact hd.opens.withCursor (m := { m.withCursor i.p1 d with drawn := m.drawn + n }) _
    · show m.drawn < m.drawn + n
      obtain ⟨rfl, -⟩ | ⟨k, -, rfl, -⟩ := hcases <;> omega
    · obtain ⟨-, hfull⟩ | ⟨k, hk, -, hfree⟩ := hcases
      · exact .inl hfull
      · exact .inr ⟨k, hk, hfree⟩

theorem Numbers.freeRowid_of_counter (h : m.Numbers i c t) (hi : i.p3 ≠ 0) :
    ∃ found m₁ d, Direct.freeRowid i m = .ok found m₁ ∧ m₁.Opens i.p1 d ∧ m₁.bank.cells.size = m.bank.cells.size ∧
      m₁.drawn = m.drawn ∧
      (found = .error codeFull ∧
          ((m.bank.cellAt i.p3.toNat).int = maxRowid ∨ maxRowid ∈ t.rowids ∨ c.randomRowid = true) ∨
        ∃ v, found = .ok v ∧ fitsWord v = true ∧
          ¬ ((m.bank.cellAt i.p3.toNat).int = maxRowid ∨ maxRowid ∈ t.rowids ∨ c.randomRowid = true) ∧
          (m.bank.cellAt i.p3.toNat).int < v ∧ (∀ k ∈ t.rowids, k < v) ∧ (m₁.bank.cellAt i.p3.toNat).int = v) := by
  obtain ⟨v, d, hrun, hd, hfits, hdrawn, hlt⟩ := h.freeRowid_eq
  obtain ⟨found, b, habove, hsize, hcases⟩ := h.aboveCounter_run hi hd.opens rfl v
  rw [hrun, chooseRowid, bind_of_ok habove, ← hdrawn]
  have hcounter := fitsWord_iff.mp (fitsWord_wordToInt (m.bank.cellAt i.p3.toNat).payload)
  obtain ⟨rfl, hfull⟩ | ⟨rfl, hroom, hrandom, hpayload⟩ := hcases
  · exact ⟨_, (m.withCursor i.p1 d).withBank b, d, rfl, hd.opens, hsize, rfl, .inl ⟨rfl, hfull⟩⟩
  · have hnew : fitsWord (max v ((m.bank.cellAt i.p3.toNat).int + 1)) = true := by
      have hle : (m.bank.cellAt i.p3.toNat).int + 1 ≤ 9223372036854775807 :=
        Int.add_one_le_of_lt (lt_of_le_of_ne hcounter.2 hroom)
      have hfits := fitsWord_iff.mp hfits
      exact fitsWord_iff.mpr ⟨le_max_of_le_left hfits.1, max_le hfits.2 hle⟩
    refine ⟨_, (m.withCursor i.p1 d).withBank b, d, ?_, hd.opens, hsize, rfl, .inr ⟨_, rfl, hnew, ?_, ?_, fun k hk => ?_, ?_⟩⟩
    · have hopens : ((m.withCursor i.p1 d).withBank b).Opens i.p1 d := hd.opens
      refine (bind_of_ok hopens.cursor_run).trans ?_
      rw [hrandom]
      rfl
    · rw [hrandom, not_or]
      exact ⟨hroom, Bool.false_ne_true⟩
    · exact lt_max_of_lt_right (lt_add_one _)
    · exact lt_max_of_lt_left (hlt hrandom k hk)
    · rw [Content.int, bank_withBank, hpayload, wordToInt_intToWord_of_fits hnew]

theorem newRowid_of_full {m₁ : Machine} (hrun : Direct.freeRowid i m = .ok (.error codeFull) m₁) :
    ∃ m₂, Direct.newRowid i m = .ok (.fail codeError) m₂ ∧ m₂.drawn = m₁.drawn ∧
      m₂.message = some (Bytes.ofString (codeText codeFull)) := by
  rw [Direct.newRowid, bind_of_ok hrun]
  exact ⟨_, rfl, rfl, rfl⟩

theorem newRowid_of_free {m₁ : Machine} {d : Cursor} (hrun : Direct.freeRowid i m = .ok (.ok v) m₁) (hd : m₁.Opens i.p1 d)
    (h0 : 0 ≤ i.p2) (hlt : i.p2.toNat < m₁.bank.cells.size) (hv : fitsWord v = true) :
    ∃ m₂, Direct.newRowid i m = .ok .next m₂ ∧ m₂.drawn = m₁.drawn ∧ (m₂.bank.cellAt i.p2.toNat).int = v ∧
      ∀ r, (m₁.bank.cellAt r).int = v → (m₂.bank.cellAt r).int = v := by
  have hstored : wordToInt (intToWord v) = v := wordToInt_intToWord_of_fits hv
  let b₂ := m₁.bank.withCell i.p2.toNat ((m₁.bank.cellAt i.p2.toNat).withPayload (intToWord v))
  have hstore : (liftM (modifyCell i.p2.toNat fun c => { c with payload := intToWord v }) : MachineM Unit)
      (m₁.withCursor i.p1 d.arrived) = .ok () ((m₁.withCursor i.p1 d.arrived).withBank b₂) := lift_of_ok (modifyCell_run _ _ _)
  refine ⟨(m₁.withCursor i.p1 d.arrived).withBank b₂, ?_, rfl, ?_, fun r hr => ?_⟩
  · rw [Direct.newRowid, bind_of_ok hrun]
    exact (bind_of_ok hd.arrived_run).trans ((bind_of_ok (lift_of_read (slot_run h0))).trans (bind_of_ok hstore))
  · rw [bank_withBank, cellAt_withCell_self hlt]
    exact hstored
  · rw [bank_withBank, cellAt_withCell hlt]
    split
    · exact hstored
    · exact hr

/-- A new row number is not taken by any row. With a counter it is above all rows and above the counter, which goes up to it,
and there is none if the counter or the rows are at the end or numbers are drawn already. Without a counter numbers are only
drawn if the largest one is taken or was found to be taken before, and there is none if the first hundred draws are all taken.
All integers on the way fit into a word. -/
theorem newRowid_is_fresh (h : m.Numbers i c t) :
    ∃ flow m', Direct.newRowid i m = .ok flow m' ∧
      (flow = .next ∨ flow = .fail codeError ∧ m'.message = some (Bytes.ofString (codeText codeFull))) ∧
      (flow = .next → (m'.bank.cellAt i.p2.toNat).int ∉ t.rowids) ∧
      (i.p3 ≠ 0 → m'.drawn = m.drawn ∧
        (flow ≠ .next ↔
          (m.bank.cellAt i.p3.toNat).int = maxRowid ∨ maxRowid ∈ t.rowids ∨ c.randomRowid = true) ∧
        (flow = .next → (m.bank.cellAt i.p3.toNat).int < (m'.bank.cellAt i.p2.toNat).int ∧
          (∀ k ∈ t.rowids, k < (m'.bank.cellAt i.p2.toNat).int) ∧
          (m'.bank.cellAt i.p3.toNat).int = (m'.bank.cellAt i.p2.toNat).int ∧
          fitsWord ((m.bank.cellAt i.p3.toNat).int + 1) = true)) ∧
      (i.p3 = 0 → (m'.drawn ≠ m.drawn ↔ maxRowid ∈ t.rowids ∨ c.randomRowid = true) ∧
        (flow ≠ .next ↔ m'.drawn ≠ m.drawn ∧ ∀ k < 100, m.candidate (m.drawn + k) ∈ t.rowids)) ∧
      (c.randomRowid = false → ∃ v m₁, Direct.nextRowid i.p1 m = .ok (.ok v) m₁ ∧ fitsWord v = true) ∧
      ∀ k, fitsWord (m.candidate k) = true := by
  have hnext (hrandom : c.randomRowid = false) : ∃ v m₁, Direct.nextRowid i.p1 m = .ok (.ok v) m₁ ∧ fitsWord v = true := by
    obtain ⟨v, q, random, hrun, -, hv, -⟩ := h.nextRowid_run h.fits hrandom
    exact ⟨v, _, hrun, hv⟩
  by_cases hi : i.p3 = 0
  · obtain ⟨found, m₁, d, hrun, hd, hbank, hcases⟩ := h.freeRowid_of_next hi
    obtain ⟨hnone, hdrawn, v, rfl, hv, hfree⟩ | ⟨hentered, hdrawn, ⟨rfl, hall⟩ | ⟨k, hk, rfl, hfree⟩⟩ := hcases
    · obtain ⟨m', hrun', hdrawn', hint, -⟩ := newRowid_of_free hrun hd h.result.1 (hbank ▸ h.result.2) hv
      refine ⟨.next, m', hrun', .inl rfl, fun _ => hint ▸ hfree, fun hne => absurd hi hne, fun _ => ?_, hnext,
        m.fitsWord_candidate⟩
      exact ⟨iff_of_false (fun hne => hne (hdrawn'.trans hdrawn)) hnone,
        iff_of_false (fun hne => hne rfl) fun hboth => hboth.1 (hdrawn'.trans hdrawn)⟩
    · obtain ⟨m', hrun', hdrawn', hmessage⟩ := newRowid_of_full hrun
      have hmore : m'.drawn ≠ m.drawn := (hdrawn' ▸ hdrawn).ne'
      exact ⟨.fail codeError, m', hrun', .inr ⟨rfl, hmessage⟩, Flow.noConfusion, fun hne => absurd hi hne,
        fun _ => ⟨iff_of_true hmore hentered, iff_of_true Flow.noConfusion ⟨hmore, hall⟩⟩, hnext, m.fitsWord_candidate⟩
    · obtain ⟨m', hrun', hdrawn', hint, -⟩ := newRowid_of_free hrun hd h.result.1 (hbank ▸ h.result.2) (m.fitsWord_candidate _)
      have hmore : m'.drawn ≠ m.drawn := (hdrawn' ▸ hdrawn).ne'
      exact ⟨.next, m', hrun', .inl rfl, fun _ => hint ▸ hfree, fun hne => absurd hi hne,
        fun _ => ⟨iff_of_true hmore hentered, iff_of_false (fun hne => hne rfl) fun hboth => hfree (hboth.2 k hk)⟩, hnext,
        m.fitsWord_candidate⟩
  · obtain ⟨found, m₁, d, hrun, hd, hsize, hdrawn, ⟨rfl, hfull⟩ | ⟨v, rfl, hv, hroom, habove, hlt, hcounter⟩⟩ :=
      h.freeRowid_of_counter hi
    · obtain ⟨m', hrun', hdrawn', hmessage⟩ := newRowid_of_full hrun
      exact ⟨.fail codeError, m', hrun', .inr ⟨rfl, hmessage⟩, Flow.noConfusion,
        fun _ => ⟨hdrawn'.trans hdrawn, iff_of_true Flow.noConfusion hfull, Flow.noConfusion⟩, fun h0 => absurd h0 hi, hnext,
        m.fitsWord_candidate⟩
    · obtain ⟨m', hrun', hdrawn', hint, hkept⟩ := newRowid_of_free hrun hd h.result.1 (hsize ▸ h.result.2) hv
      refine ⟨.next, m', hrun', .inl rfl, fun _ hmem => ?_, fun _ => ⟨hdrawn'.trans hdrawn,
        iff_of_false (fun hne => hne rfl) hroom, fun _ => ⟨hint ▸ habove, hint ▸ hlt, (hkept _ hcounter).trans hint.symm, ?_⟩⟩,
        fun h0 => absurd h0 hi, hnext, m.fitsWord_candidate⟩
      · exact absurd (hlt _ hmem) (hint ▸ lt_irrefl v)
      · have hold := fitsWord_iff.mp (fitsWord_wordToInt (m.bank.cellAt i.p3.toNat).payload)
        have hnew := fitsWord_iff.mp hv
        exact fitsWord_iff.mpr ⟨hold.1.trans (Int.le_add_one le_rfl), (Int.add_one_le_of_lt habove).trans hnew.2⟩

/-- A table whose only row has the largest number. -/
def lastRow : Tree where
  isTable := true
  entries := [{ key := maxRowid, record := [] }]
  spread := .single 2 1

theorem mem_lastRow {k : ℤ} : k ∈ lastRow.rowids ↔ k = maxRowid := by
  simp [Tree.rowids, lastRow, eq_comm]

theorem lastRow_finds : lastRow.Finds := by
  intro key
  have hstart : lastRow.search (Tree.orderOfKey key) false =
      Search.probe (fun i => Tree.orderOfKey key (lastRow.entry i)) 1 0 0 0 := rfl
  have hsearch : lastRow.search (Tree.orderOfKey key) false = .stopped 0 (compare maxRowid key) := by
    have horder : Tree.orderOfKey key (lastRow.entry 0) = some (compare maxRowid key) := rfl
    rw [hstart, Search.probe, horder]
    cases compare maxRowid key <;> rfl
  rw [Position.seek, hsearch, mem_lastRow, Position.ofSearch, Option.some.injEq, compare_eq_iff_eq, eq_comm]

def numbering : Machine where
  bank := Bank.ofCells #[.null, .ofInt 0] true true 0
  program := #[]
  status := { useFlagCache := true }
  database := default
  cursors := #[some { source := .own lastRow { size := 1 }, isTable := true }]
  once := #[]
  registers := 1
  width := 0

theorem numbering_numbers : numbering.Numbers ⟨.newRowid, 0, 1, 0, .none, 0⟩
    { source := .own lastRow { size := 1 }, isTable := true } lastRow where
  opens := ⟨le_rfl, rfl⟩
  tree := rfl
  table := rfl
  ascending := List.pairwise_singleton _ _
  finds := lastRow_finds
  exact := Position.exact_of_plain rfl rfl
  fits k hk := by
    rw [mem_lastRow.mp hk]
    rfl
  result := by decide
  counter hne := absurd rfl hne

theorem newRowid_is_fresh_drawn : ∃ m', Direct.newRowid ⟨.newRowid, 0, 1, 0, .none, 0⟩ numbering = .ok .next m' ∧
    m'.drawn ≠ 0 ∧ (m'.bank.cellAt 1).int ≠ maxRowid := by
  obtain ⟨flow, m', hrun, -, hfree, -, hdrawn, -⟩ := newRowid_is_fresh numbering_numbers
  obtain ⟨hentered, hfull⟩ := hdrawn rfl
  have hnext : flow = .next := by
    by_contra hne
    have hmem := mem_lastRow.mp ((hfull.mp hne).2 0 (by decide))
    rw [candidate] at hmem
    have hmax : maxRowid = 9223372036854775807 := rfl
    omega
  subst hnext
  exact ⟨m', hrun, hentered.mpr (.inl (mem_lastRow.mpr rfl)), fun heq => hfree rfl (mem_lastRow.mpr heq)⟩

end Machine

end QueryMachine
