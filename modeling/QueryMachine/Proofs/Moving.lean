import Mathlib
import QueryMachine.Proofs.Ownership
import QueryMachine.Proofs.Scanning

/-!
Ranges of registers that are moved. Both rules leave the same registers behind. The tracked rule looks up the registers behind
the ranges, too, and fails where there are none.
-/

namespace QueryMachine

namespace Bank

variable {b b₁ b₂ : Bank} {s t n : Nat}

/-- What register `k` holds after the `n` registers from `s` on have been moved to those from `t` on. -/
def cellMoved (b : Bank) (s t n k : Nat) : Cell :=
  if t ≤ k ∧ k < t + n then b.cellAt (s + (k - t))
  else if s ≤ k ∧ k < s + n then (b.cellAt k).movedAway
  else b.cellAt k

/-- The `n` registers from `s` on have been moved to those from `t` on. -/
structure Moves (b : Bank) (s t n : Nat) (b' : Bank) : Prop where
  cellAt : ∀ k, b'.cellAt k = b.cellMoved s t n k
  reach : b'.reach = b.reach

theorem moves_nothing (b : Bank) (s t : Nat) : b.Moves s t 0 b where
  cellAt k := by
    rw [cellMoved, if_neg (by omega), if_neg (by omega)]
  reach := rfl

theorem cellMoved_one (hne : s ≠ t) (k : Nat) : b.cellMoved s t 1 k =
    if s = k then (b.cellAt s).movedAway else if t = k then b.cellAt s else b.cellAt k := by
  rw [cellMoved]
  by_cases hks : s = k
  · subst hks
    rw [if_pos rfl, if_neg (by omega), if_pos (by omega)]
  · rw [if_neg hks]
    by_cases hkt : t = k
    · subst hkt
      rw [if_pos rfl, if_pos (by omega), Nat.sub_self, Nat.add_zero]
    · rw [if_neg hkt, if_neg (by omega), if_neg (by omega)]

/-- The first register of the range is moved first, which leaves the others of both ranges alone. -/
theorem Moves.cons (h : b.Moves s t 1 b₁) (h' : b₁.Moves (s + 1) (t + 1) n b₂) (hapart : s + (n + 1) ≤ t ∨ t + (n + 1) ≤ s) :
    b.Moves s t (n + 1) b₂ where
  cellAt k := by
    rw [h'.cellAt]
    simp only [cellMoved, h.cellAt]
    by_cases htarget : t ≤ k ∧ k < t + (n + 1)
    · by_cases hk : k = t
      · subst hk
        simp only [show ¬ (k + 1 ≤ k ∧ k < k + 1 + n) by omega, show ¬ (s + 1 ≤ k ∧ k < s + 1 + n) by omega, htarget,
          show k ≤ k ∧ k < k + 1 by omega, if_true, if_false, and_self]
      · have hindex : s + 1 + (k - (t + 1)) = s + (k - t) := by omega
        simp only [show t + 1 ≤ k ∧ k < t + 1 + n by omega, htarget, hindex,
          show ¬ (t ≤ s + (k - t) ∧ s + (k - t) < t + 1) by omega,
          show ¬ (s ≤ s + (k - t) ∧ s + (k - t) < s + 1) by omega, if_true, if_false, and_self]
    · simp only [show ¬ (t + 1 ≤ k ∧ k < t + 1 + n) by omega, htarget, show ¬ (t ≤ k ∧ k < t + 1) by omega, if_false]
      by_cases hk : k = s
      · subst hk
        simp only [show ¬ (k + 1 ≤ k ∧ k < k + 1 + n) by omega, show k ≤ k ∧ k < k + 1 by omega,
          show k ≤ k ∧ k < k + (n + 1) by omega, if_true, if_false, and_self]
      · simp only [show ¬ (s ≤ k ∧ k < s + 1) by omega, if_false,
          show (s + 1 ≤ k ∧ k < s + 1 + n) = (s ≤ k ∧ k < s + (n + 1)) by apply propext; omega]
  reach := h'.reach.trans h.reach

theorem Frank.moves_one (h : b.Frank) (hs : s < b.reach) (ht : t < b.reach) (hne : s ≠ t) :
    ∃ b', moveFrom t s b = .ok () b' ∧ b.Moves s t 1 b' ∧ b'.Frank := by
  obtain ⟨c, b', hrun, hfrank, hreach, hc, hcells⟩ := h.moveFrom_run ht hs
  refine ⟨b', hrun, ⟨fun k => ?_, hreach⟩, hfrank⟩
  rw [hcells, hc hne.symm, cellMoved_one hne]

theorem register_of_le {i : Int} (h : (b.reach : Int) ≤ i) : register i b = .error .unknownRegister b := by
  simp only [register, bind_of_ok get_run, wrapIndex?]
  rw [if_pos (by omega), if_neg (by omega)]
  rfl

/-- Every register is moved. What stands behind the ranges is looked up in the end, and may not be there. -/
theorem Frank.moves_tracked (h : b.Frank) (hs : s + n ≤ b.reach) (ht : t + n ≤ b.reach)
    (hapart : s + n ≤ t ∨ t + n ≤ s) (hn : 0 < n) :
    ∃ b', b.Moves s t n b' ∧ b'.Frank ∧ Tracked.moveFrom n s t s t b =
      if s + n < b.reach ∧ t + n < b.reach then .ok () b' else .error .unknownRegister b' := by
  induction n generalizing b s t with
  | zero => omega
  | succ n ih =>
    obtain ⟨b₁, hfirst, h₁, hfrank⟩ := h.moves_one (s := s) (t := t) (by omega) (by omega) (by omega)
    have hreach := h₁.reach
    rw [Tracked.moveFrom, bind_of_ok hfirst]
    rcases n.eq_zero_or_pos with rfl | hn
    · refine ⟨b₁, h₁, hfrank, ?_⟩
      by_cases hsource : s + 1 < b.reach
      · rw [bind_of_ok (register_run (i := (s : Int) + 1) (by omega) (by omega))]
        by_cases htarget : t + 1 < b.reach
        · rw [bind_of_ok (register_run (i := (t : Int) + 1) (by omega) (by omega)), if_pos ⟨hsource, htarget⟩]
          rfl
        · rw [bind_of_error (register_of_le (by omega)), if_neg (fun hboth => htarget hboth.2)]
      · rw [bind_of_error (register_of_le (by omega)), if_neg (fun hboth => hsource hboth.1)]
    · rw [bind_of_ok (register_run (i := (s : Int) + 1) (by omega) (by omega)),
        bind_of_ok (register_run (i := (t : Int) + 1) (by omega) (by omega))]
      obtain ⟨b₂, h₂, hfrank₂, hrun⟩ := ih hfrank (s := s + 1) (t := t + 1) (by omega) (by omega) (by omega) hn
      refine ⟨b₂, h₁.cons h₂ hapart, hfrank₂, ?_⟩
      rw [show ((s : Int) + 1) = ((s + 1 : Nat) : Int) by push_cast; rfl,
        show ((t : Int) + 1) = ((t + 1 : Nat) : Int) by push_cast; rfl, Int.toNat_natCast, Int.toNat_natCast, hrun, hreach]
      simp only [Nat.add_right_comm, Nat.add_assoc]

/-- The direct rule for the register `k` places behind the start of the ranges. -/
def moveCell (p q : Int) (k : Nat) : BankM PUnit := do
  let source ← slot (p + k)
  let c ← cell source
  setCell (← slot (q + k)) c.moveFrom
  setCell source c.movedAway

theorem direct_move_eq (i : Instruction) : Direct.move i = forM (List.range i.p3.toNat) (moveCell i.p1 i.p2) := by
  simp only [Direct.move, ← forIn_eq_forM, moveCell, bind_assoc]
  exact bind_pure_unit

theorem moveCell_run {p q : Int} {k : Nat} (hp : p + k = s) (hq : q + k = t) :
    moveCell p q k b = .ok ⟨⟩ ((b.withCell t (b.cellAt s)).withCell s (b.cellAt s).movedAway) := by
  rw [moveCell, bind_of_ok (slot_run (by omega)), hp, Int.toNat_natCast, bind_of_ok (cell_run b s),
    bind_of_ok (slot_run (by omega)), hq, Int.toNat_natCast, bind_of_ok (setCell_run b t _)]
  exact setCell_run _ s _

theorem moves_direct (hs : s + n ≤ b.cells.size) (ht : t + n ≤ b.cells.size) (hapart : s + n ≤ t ∨ t + n ≤ s) {k : Nat}
    {p q : Int} (hp : p + k = s) (hq : q + k = t) :
    ∃ b', b.Moves s t n b' ∧ forM (List.range' k n) (moveCell p q) b = .ok ⟨⟩ b' := by
  induction n generalizing b s t k with
  | zero => exact ⟨b, moves_nothing b s t, rfl⟩
  | succ n ih =>
    let b₁ := (b.withCell t (b.cellAt s)).withCell s (b.cellAt s).movedAway
    have hsize : b₁.cells.size = b.cells.size := by rw [size_withCell, size_withCell]
    have h₁ : b.Moves s t 1 b₁ := by
      refine ⟨fun j => ?_, rfl⟩
      rw [cellAt_withCell (by rw [size_withCell]; omega), cellAt_withCell (by omega), cellMoved_one (by omega)]
    obtain ⟨b₂, h₂, hrun⟩ := ih (b := b₁) (s := s + 1) (t := t + 1) (k := k + 1) (by omega) (by omega) (by omega)
      (by omega) (by omega)
    refine ⟨b₂, h₁.cons h₂ hapart, ?_⟩
    rw [List.range'_succ, List.forM_cons, bind_of_ok (moveCell_run hp hq)]
    exact hrun

end Bank

/-- Two ranges that lie within the registers and apart from each other. -/
structure Instruction.MovesWithin (i : Instruction) (registers : Nat) : Prop where
  source : 0 < i.p1 ∧ i.p1 + i.p3 ≤ registers + 1
  target : 0 < i.p2 ∧ i.p2 + i.p3 ≤ registers + 1
  count : 0 < i.p3
  apart : i.p1 + i.p3 ≤ i.p2 ∨ i.p2 + i.p3 ≤ i.p1

namespace Bank

/-- Every register of the source range is moved to its place in the target range and left without a value, and the other
registers are left alone. So does the tracked rule, which then fails if a range ends at the last register and no cursor has a
cell behind it. -/
theorem move_moves_range {b : Bank} (hb : b.Frank) (registers cursors : Nat) (hreach : b.reach = 1 + registers + cursors)
    {i : Instruction} (hi : i.MovesWithin registers) :
    ∃ moved tracked, Direct.move i b = .ok () moved ∧
      Tracked.move i b =
        (if cursors = 0 ∧ (i.p1 + i.p3 = registers + 1 ∨ i.p2 + i.p3 = registers + 1) then .error .unknownRegister tracked
         else .ok () tracked) ∧
      (∀ k, tracked.cellAt k = moved.cellAt k) ∧
      (∀ k : Nat, k < i.p3 → moved.cellAt (i.p2 + k).toNat = b.cellAt (i.p1 + k).toNat ∧
        (moved.cellAt (i.p1 + k).toNat).view = .null) ∧
      ∀ k : Nat, ¬ (i.p1 ≤ k ∧ k < i.p1 + i.p3) → ¬ (i.p2 ≤ k ∧ k < i.p2 + i.p3) → moved.cellAt k = b.cellAt k := by
  obtain ⟨hsource, htarget, hcount, hapart⟩ := hi
  obtain ⟨s, hs⟩ := Int.eq_ofNat_of_zero_le hsource.1.le
  obtain ⟨t, ht⟩ := Int.eq_ofNat_of_zero_le htarget.1.le
  obtain ⟨n, hn⟩ := Int.eq_ofNat_of_zero_le hcount.le
  have hsize := hb.reach
  obtain ⟨moved, hmoved, hdirect⟩ := moves_direct (b := b) (s := s) (t := t) (n := n) (k := 0) (p := i.p1) (q := i.p2)
    (by omega) (by omega) (by omega) (by omega) (by omega)
  obtain ⟨tracked, htracked, -, hrun⟩ := hb.moves_tracked (s := s) (t := t) (n := n) (by omega) (by omega) (by omega) (by omega)
  refine ⟨moved, tracked, ?_, ?_, fun k => ?_, fun k hk => ⟨?_, ?_⟩, fun k hk hk' => ?_⟩
  · rw [direct_move_eq, hn, Int.toNat_natCast, List.range_eq_range']
    exact hdirect
  · have hvalid : (decide (0 < i.p3) && decide (0 < i.p1) && decide (0 < i.p2)) = true := by
      simp only [Bool.and_eq_true, decide_eq_true_eq]
      omega
    have hdisjoint : (decide (i.p1 + i.p3 ≤ i.p2) || decide (i.p2 + i.p3 ≤ i.p1)) = true := by
      simpa only [Bool.or_eq_true, decide_eq_true_eq] using hapart
    rw [Tracked.move, bind_of_ok (check_run hvalid), bind_of_ok (check_run hdisjoint),
      bind_of_ok (register_run (by omega) (by omega)), bind_of_ok (register_run (by omega) (by omega)), hs, ht, hn]
    simp only [Int.toNat_natCast, hrun]
    split_ifs <;> first | rfl | omega
  · rw [htracked.cellAt, hmoved.cellAt]
  · rw [hmoved.cellAt, cellMoved, if_pos (by omega)]
    congr 1
    omega
  · rw [hmoved.cellAt, cellMoved, if_neg (by omega), if_pos (by omega)]
    rfl
  · rw [hmoved.cellAt, cellMoved, if_neg (by omega), if_neg (by omega)]

/-- Two registers, and no cursor. -/
def twoRegisters : Bank := ofCells #[{}, .ofInt 7, .ofInt 8] true true 0

theorem move_moves_range_last : ∃ moved tracked, Direct.move ⟨.move, 1, 2, 1, .none, 0⟩ twoRegisters = .ok () moved ∧
    Tracked.move ⟨.move, 1, 2, 1, .none, 0⟩ twoRegisters = .error .unknownRegister tracked ∧
    (∀ k, tracked.cellAt k = moved.cellAt k) ∧ moved.cellAt 2 = .ofInt 7 ∧ (moved.cellAt 1).view = .null := by
  obtain ⟨moved, tracked, hdirect, htracked, hsame, hmoved, -⟩ := move_moves_range (b := twoRegisters)
    (frank_ofCells _ true true 0) 2 0 rfl (i := ⟨.move, 1, 2, 1, .none, 0⟩) ⟨by decide, by decide, by decide, by decide⟩
  exact ⟨moved, tracked, hdirect, htracked, hsame, (hmoved 0 (by decide)).1, (hmoved 0 (by decide)).2⟩

/-- A register is moved to the last one, and nothing stands behind that. -/
theorem move_lacks_register : (∃ b, Direct.move ⟨.move, 1, 2, 1, .none, 0⟩ twoRegisters = .ok () b) ∧
    ∃ b, Tracked.move ⟨.move, 1, 2, 1, .none, 0⟩ twoRegisters = .error .unknownRegister b := by
  constructor <;> exact ⟨_, rfl⟩

end Bank

end QueryMachine
