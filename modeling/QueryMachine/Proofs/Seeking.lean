import Mathlib
import QueryMachine.Proofs.Affinities
import QueryMachine.Proofs.CellRules
import QueryMachine.Proofs.Scanning

/-!
Searches for row numbers. A key with a fraction is taken for the integer next to it, with the bound that
goes with that integer, so the row that is found is the one that the key itself asks for. The tracked rule
and the direct rule do the same for every key but a text that is a number: for that the direct rule
searches, and the tracked one says that there is no row.
-/

namespace QueryMachine

/-! No search for a row number finds damage. -/

namespace Search

variable {order : Nat → Option Ordering} {fromLast : Bool}

theorem probe_ne_damaged (h : ∀ j, (order j).isSome = true) {fuel : Nat} {lo hi : Int} {i : Nat} (h0 : 0 ≤ lo)
    (hlo : lo ≤ i) (hhi : i ≤ hi) (hfuel : hi - lo < fuel) (j : Nat) : probe order fuel lo hi i ≠ .damaged j := by
  induction fuel generalizing lo hi i with
  | zero => omega
  | succ fuel ih =>
    obtain ⟨o, ho⟩ := Option.isSome_iff_exists.mp (h i)
    rw [probe, ho]
    cases o with
    | eq => exact fun heq => by cases heq
    | lt =>
      dsimp only
      split
      · exact fun heq => by cases heq
      · exact ih (by omega) (by omega) (by omega) (by omega)
    | gt =>
      dsimp only
      split
      · exact fun heq => by cases heq
      · exact ih (by omega) (by omega) (by omega) (by omega)

theorem among_ne_damaged (h : ∀ j, (order j).isSome = true) (start n j : Nat) :
    among order fromLast start n ≠ .damaged j := by
  rw [among]
  split
  · exact fun heq => by cases heq
  · refine probe_ne_damaged h (by omega) ?_ ?_ (by omega) j <;> split <;> omega

end Search

theorem Tree.descend_ne_damaged {order : Entry → Option Ordering} (h : ∀ e, (order e).isSome = true) (fromLast : Bool)
    (t : Tree) (k j i : Nat) : t.descend order fromLast k j ≠ .damaged i := by
  induction k generalizing j with
  | zero => exact Search.among_ne_damaged (fun _ => h _) _ _ i
  | succ k ih =>
    rw [descend]
    dsimp only
    split
    · exact ih _
    · exact ih _
    · exact ih _
    · split
      · exact ih _
      · exact fun heq => by cases heq
    · rename_i hdamaged
      exact absurd hdamaged (Search.among_ne_damaged (fun _ => h _) _ _ _)

namespace Position

variable {t : Tree} {p q : Position}

theorem seekKey_cases (t : Tree) (key : Int) (p : Position) :
    ∃ o q, p.seekKey t key false = (some o, q) ∧ (q.isHere = true ∨ q.place = .nowhere) := by
  have hseek : ∃ o q, seek t (Tree.orderOfKey key) false = (some o, q) ∧ (q.isHere = true ∨ q.place = .nowhere) := by
    rw [seek, Tree.search]
    split
    · exact ⟨.lt, {}, rfl, .inr rfl⟩
    · cases hsearch : t.descend (Tree.orderOfKey key) false t.spread.top 0 with
      | empty => exact ⟨.lt, {}, rfl, .inr rfl⟩
      | stopped i o => exact ⟨o, _, rfl, .inl rfl⟩
      | damaged i => exact absurd hsearch (t.descend_ne_damaged (fun _ => rfl) false _ _ i)
  rw [seekKey]
  split
  · rename_i k hhere _
    split
    · exact ⟨.eq, p, rfl, .inl hhere⟩
    · split
      · exact ⟨.lt, p, rfl, .inl hhere⟩
      · exact hseek
  · exact hseek

theorem step_cases (t : Tree) (info : Option KeyInfo) (upward : Bool) (h : p.isHere = true ∨ p.place = .nowhere) :
    ∃ found q, (if upward then p.next t info else p.previous t info) = (some found, q) := by
  rw [isHere, Bool.or_eq_true, beq_iff_eq, beq_iff_eq] at h
  cases upward with
  | true => obtain (hp | hp) | hp := h <;> simp [next, restore, hp]
  | false => obtain (hp | hp) | hp := h <;> simp [previous, restore, hp]

variable (t) in
theorem previous_of_here (info : Option KeyInfo) (hp : p.place = .here) :
    (∃ q, p.previous t info = (some true, q) ∧ q.place = .here ∧ q.index + 1 = p.index) ∨
      ∃ q, p.previous t info = (some false, q) ∧ p.index = 0 := by
  by_cases h0 : p.index = 0
  · refine .inr ⟨{ p with place := .nowhere, noted := none, fresh := false, atLast := false }, ?_, h0⟩
    simp [previous, restore, stepPrevious, hp, h0]
  · refine .inl ⟨{ p with place := .here, index := p.index - 1, noted := none, fresh := false, atLast := false }, ?_,
      rfl, Nat.sub_add_cancel (Nat.pos_of_ne_zero h0)⟩
    simp [previous, restore, stepPrevious, hp, h0]

end Position

def Cursor.shown (c : Cursor) : Cursor := { c with nullRow := false }

/-- The cursor after a search, which does not know anything about the row yet. -/
def Cursor.arrived (c : Cursor) : Cursor := { c.stale with deferred := none }

namespace Machine

variable {m : Machine} {c : Cursor} {t : Tree} {i : Instruction} {b : Bound} {o : Ordering} {q : Position} {key : Int}

theorem seekTable_eq (h : m.Opens i.p1 c) (ht : m.treeOf? c = some t)
    (hs : c.position.seekKey t key false = (some o, q)) (b : Bound) :
    Step.seekTable b key i m = Step.finishSeek b o i (m.withCursor i.p1 { c with position := q }) := by
  have hseek : seekRow i.p1 c key m = .ok (some o) (m.withCursor i.p1 { c with position := q }) := by
    simp only [seekRow, seekCursor, bind_of_ok get_run, ht, hs]
    rw [moveCursor, bind_of_ok (h.setCursor_run _)]
    rfl
  rw [Step.seekTable, bind_of_ok h.cursor_run, bind_of_ok hseek]

theorem Opens.arrived_run (h : m.Opens i.p1 c) :
    modifyCursor i.p1 (fun c => { c.stale with deferred := none }) m = .ok () (m.withCursor i.p1 c.arrived) :=
  h.modifyCursor_run _

theorem finishSeek_of_hit (h : m.Opens i.p1 c) (hm : b.misses o = false) :
    Step.finishSeek b o i m = .ok (if b.isUpward then .next else .jumpIf (!c.position.isHere) i.p2)
      (m.withCursor i.p1 c.arrived) := by
  rw [Step.finishSeek, bind_of_ok h.arrived_run, hm]
  cases b.isUpward with
  | true => rfl
  | false => exact (bind_of_ok (h.withCursor c.arrived).cursor_run).trans rfl

theorem finishSeek_of_miss {found : Bool} (h : m.Opens i.p1 c) (ht : m.treeOf? c = some t) (hm : b.misses o = true)
    (hn : (if b.isUpward then c.position.next t c.info else c.position.previous t c.info) = (some found, q)) :
    Step.finishSeek b o i m = .ok (.jumpIf (!found) i.p2)
      (m.withCursor i.p1 { c.arrived with position := q }) := by
  have hmove := moveOn_run (h.withCursor c.arrived) (c := c.arrived) (t := t) ht hn
  rw [withCursor_withCursor] at hmove
  rw [Step.finishSeek, bind_of_ok h.arrived_run, hm, if_pos rfl, bind_of_ok hmove]
  rfl

end Machine

/-! Row numbers. -/

namespace Bound

/-- Whether a search is for a row number, as against a key. -/
def Meets : Bound → ℚ → ℤ → Prop
  | .lt, q, k => k < q
  | .le, q, k => k ≤ q
  | .ge, q, k => q ≤ k
  | .gt, q, k => q < k

theorem meets_int (b : Bound) (key k : ℤ) :
    b.Meets key k ↔ match b with | .lt => k < key | .le => k ≤ key | .ge => key ≤ k | .gt => key < k := by
  cases b <;> simp only [Meets] <;> norm_cast

/-- The row number that a search is for, among those it could be for: the least one upwards, the greatest one
downwards. -/
def IsNearest (b : Bound) (s : Set ℤ) (k : ℤ) : Prop := if b.isUpward then IsLeast s k else IsGreatest s k

theorem isNearest_of_upward {b : Bound} {s : Set ℤ} {k : ℤ} (h : b.isUpward = true) (hk : IsLeast s k) :
    b.IsNearest s k := by
  rwa [IsNearest, if_pos h]

theorem isNearest_of_downward {b : Bound} {s : Set ℤ} {k : ℤ} (h : b.isUpward = false) (hk : IsGreatest s k) :
    b.IsNearest s k := by
  rwa [IsNearest, h, if_neg Bool.false_ne_true]

/-- The bound for the integer part of a key. -/
def rounded (b : Bound) (q : ℚ) : Bound :=
  if q < wholePart q then b.forLarger else if wholePart q < q then b.forSmaller else b

theorem isUpward_rounded (b : Bound) (q : ℚ) : (b.rounded q).isUpward = b.isUpward := by
  rw [rounded]
  split_ifs <;> cases b <;> rfl

theorem wholePart_near (q : ℚ) :
    (q < wholePart q → (wholePart q : ℚ) - 1 < q) ∧ ((wholePart q : ℚ) < q → q < wholePart q + 1) := by
  have hfloor := Int.lt_floor_add_one q
  have hceil := Int.ceil_lt_add_one q
  rw [wholePart]
  split
  · exact ⟨fun h => absurd (Int.floor_le q) (not_le.mpr h), fun _ => hfloor⟩
  · exact ⟨fun _ => by linarith, fun h => absurd (Int.le_ceil q) (not_le.mpr h)⟩

theorem meets_rounded (b : Bound) (q : ℚ) (k : ℤ) : (b.rounded q).Meets (wholePart q) k ↔ b.Meets q k := by
  obtain ⟨habove, hbelow⟩ := wholePart_near q
  have hlt (n : ℤ) : (k : ℚ) < n ↔ (k : ℚ) ≤ (n : ℚ) - 1 := by
    have : k < n ↔ k ≤ n - 1 := by omega
    exact_mod_cast this
  have hgt (n : ℤ) : (n : ℚ) < k ↔ (n : ℚ) + 1 ≤ k := by
    have : n < k ↔ n + 1 ≤ k := by omega
    exact_mod_cast this
  have hleft := hlt (wholePart q)
  have hright := hgt (wholePart q)
  rw [rounded]
  split_ifs with h₁ h₂
  · have := habove h₁
    cases b <;> simp only [forLarger, Meets]
    · exact ⟨fun h => by linarith [hleft.mp h], fun h => by linarith⟩
    · exact ⟨fun h => by linarith [hleft.mp h], fun h => by linarith⟩
    · refine ⟨fun h => by linarith, fun h => ?_⟩
      by_contra hk
      linarith [hleft.mp (not_le.mp hk)]
    · refine ⟨fun h => by linarith, fun h => ?_⟩
      by_contra hk
      linarith [hleft.mp (not_le.mp hk)]
  · have := hbelow h₂
    cases b <;> simp only [forSmaller, Meets]
    · refine ⟨fun h => by linarith, fun h => ?_⟩
      by_contra hk
      linarith [hright.mp (not_le.mp hk)]
    · refine ⟨fun h => by linarith, fun h => ?_⟩
      by_contra hk
      linarith [hright.mp (not_le.mp hk)]
    · exact ⟨fun h => by linarith [hright.mp h], fun h => by linarith⟩
    · exact ⟨fun h => by linarith [hright.mp h], fun h => by linarith⟩
  · have hq : (wholePart q : ℚ) = q := le_antisymm (not_lt.mp h₁) (not_lt.mp h₂)
    rw [hq]

end Bound

namespace Tree

def rowids (t : Tree) : Set ℤ := {k | ∃ e ∈ t.entries, e.key = k}

/-- The rows of a table in the order of their numbers. -/
def Ascending (t : Tree) : Prop := t.entries.Pairwise fun e e' => e.key < e'.key

/-- A search for a key ends at an entry with the key, at a neighbour of where that would be, or nowhere in an empty
table, and answers how the entry compares with the key. -/
def Lands (t : Tree) (key : ℤ) : Option Ordering × Position → Prop
  | (none, _) => False
  | (some o, q) =>
    (∃ e, q.place = .here ∧ t.entries[q.index]? = some e ∧ o = Ord.compare e.key key ∧
      (o = .lt → ∀ e', t.entries[q.index + 1]? = some e' → key < e'.key) ∧
      (o = .gt → ∀ j e', j + 1 = q.index → t.entries[j]? = some e' → e'.key < key)) ∨
    t.entries = [] ∧ q.place = .nowhere ∧ o = .lt

variable {t : Tree} {j : Nat} {e : Entry} {k key : ℤ}

theorem Ascending.neighbours (h : t.Ascending) (he : t.entries[j]? = some e) (hk : k ∈ t.rowids) :
    k = e.key ∨ (k < e.key ∧ ∃ j' e', j' + 1 = j ∧ t.entries[j']? = some e' ∧ k ≤ e'.key) ∨
      e.key < k ∧ ∃ e', t.entries[j + 1]? = some e' ∧ e'.key ≤ k := by
  obtain ⟨e₁, hmem, rfl⟩ := hk
  obtain ⟨i, hi, rfl⟩ := List.getElem_of_mem hmem
  obtain ⟨hj, rfl⟩ := List.getElem?_eq_some_iff.mp he
  have hlt := List.pairwise_iff_getElem.mp h
  have hle {a b : Nat} (ha : a < t.entries.length) (hb : b < t.entries.length) (hab : a ≤ b) :
      t.entries[a].key ≤ t.entries[b].key := by
    obtain rfl | hab := Nat.eq_or_lt_of_le hab
    · exact le_rfl
    · exact (hlt a b ha hb hab).le
  obtain hij | rfl | hij := lt_trichotomy i j
  · refine .inr (.inl ⟨hlt i j hi hj hij, j - 1, t.entries[j - 1], by omega, List.getElem?_eq_getElem _, ?_⟩)
    exact hle hi (by omega) (by omega)
  · exact .inl rfl
  · exact .inr (.inr ⟨hlt j i hj hi hij, t.entries[j + 1], List.getElem?_eq_getElem _, hle (by omega) hi hij⟩)

theorem Ascending.lt_next {e' : Entry} (h : t.Ascending) (he : t.entries[j]? = some e)
    (he' : t.entries[j + 1]? = some e') : e.key < e'.key := by
  obtain ⟨hj, rfl⟩ := List.getElem?_eq_some_iff.mp he
  obtain ⟨hj', rfl⟩ := List.getElem?_eq_some_iff.mp he'
  exact List.pairwise_iff_getElem.mp h j (j + 1) hj hj' (Nat.lt_succ_self j)

theorem Ascending.next_le (h : t.Ascending) (he : t.entries[j]? = some e) (hk : k ∈ t.rowids) (hlt : e.key < k) :
    ∃ e', t.entries[j + 1]? = some e' ∧ e'.key ≤ k := by
  obtain rfl | ⟨hgt, -⟩ | ⟨-, hnext⟩ := h.neighbours he hk
  · exact absurd hlt (lt_irrefl _)
  · exact absurd hlt hgt.asymm
  · exact hnext

theorem Ascending.le_previous (h : t.Ascending) (he : t.entries[j]? = some e) (hk : k ∈ t.rowids) (hlt : k < e.key) :
    ∃ j' e', j' + 1 = j ∧ t.entries[j']? = some e' ∧ k ≤ e'.key := by
  obtain rfl | ⟨-, hprevious⟩ | ⟨hgt, -⟩ := h.neighbours he hk
  · exact absurd hlt (lt_irrefl _)
  · exact hprevious
  · exact absurd hlt hgt.asymm

theorem Ascending.meets_iff (h : t.Ascending) (he : t.entries[j]? = some e)
    (hnext : Ord.compare e.key key = .lt → ∀ e', t.entries[j + 1]? = some e' → key < e'.key)
    (hprevious : Ord.compare e.key key = .gt → ∀ j' e', j' + 1 = j → t.entries[j']? = some e' → e'.key < key)
    (b : Bound) (hk : k ∈ t.rowids) :
    b.Meets key k ↔
      match b.misses (Ord.compare e.key key), b.isUpward with
      | true, true => e.key < k
      | false, true => e.key ≤ k
      | true, false => k < e.key
      | false, false => k ≤ e.key := by
  have hcases := h.neighbours he hk
  rw [Bound.meets_int]
  cases ho : Ord.compare e.key key with
  | lt =>
    have hlt := compare_lt_iff_lt.mp ho
    have hover : e.key < k → key < k := fun hek => by
      obtain heq | ⟨hke, -⟩ | ⟨-, e', he', hle⟩ := hcases
      · omega
      · omega
      · exact lt_of_lt_of_le (hnext ho e' he') hle
    cases b <;> simp [Bound.misses, Bound.isUpward, bne] <;> omega
  | eq =>
    have heq := compare_eq_iff_eq.mp ho
    cases b <;> simp [Bound.misses, Bound.isUpward, bne] <;> omega
  | gt =>
    have hgt := compare_gt_iff_gt.mp ho
    have hunder : k < e.key → k < key := fun hke => by
      obtain heq | ⟨-, j', e', hj', he', hle⟩ | ⟨hek, -⟩ := hcases
      · omega
      · exact lt_of_le_of_lt hle (hprevious ho j' e' hj' he')
      · omega
    cases b <;> simp [Bound.misses, Bound.isUpward, bne] <;> omega

end Tree

/-- The cursor stands on the row with a number. -/
def Cursor.OnRow (c : Cursor) (t : Tree) (k : ℤ) : Prop := ∃ j e, c.At j ∧ t.entries[j]? = some e ∧ e.key = k

namespace Machine

variable {m : Machine} {c : Cursor} {t : Tree} {i : Instruction} {key : ℤ}

/-- How a search in a table ends, whatever the registers hold. -/
def Ends (t : Tree) (b : Bound) (key : ℤ) (i : Instruction) (c : Cursor) (flow : Flow) (d : Cursor) : Prop :=
  c.Alike d ∧ d.nullRow = c.nullRow ∧
    ∀ m : Machine, m.Opens i.p1 c → m.treeOf? c = some t → Step.seekTable b key i m = .ok flow (m.withCursor i.p1 d)

theorem ends_of_hit {b : Bound} {o : Ordering} {q : Position} (hseek : c.position.seekKey t key false = (some o, q))
    (hm : b.misses o = false) :
    Ends t b key i c (if b.isUpward then .next else .jumpIf (!q.isHere) i.p2) ({ c with position := q } : Cursor).arrived := by
  refine ⟨⟨rfl, rfl, rfl, rfl⟩, rfl, fun m h ht => ?_⟩
  rw [seekTable_eq h ht hseek, finishSeek_of_hit (h.withCursor _) hm, withCursor_withCursor]

theorem ends_of_miss {b : Bound} {o : Ordering} {q q' : Position} {found : Bool}
    (hseek : c.position.seekKey t key false = (some o, q)) (hm : b.misses o = true)
    (hstep : (if b.isUpward then q.next t c.info else q.previous t c.info) = (some found, q')) :
    Ends t b key i c (.jumpIf (!found) i.p2) ({ c with position := q' } : Cursor).arrived := by
  refine ⟨⟨rfl, rfl, rfl, rfl⟩, rfl, fun m h ht => ?_⟩
  rw [seekTable_eq h ht hseek, finishSeek_of_miss (c := { c with position := q }) (t := t) (h.withCursor _) ht hm hstep,
    withCursor_withCursor]
  rfl

theorem exists_ends (t : Tree) (b : Bound) (key : ℤ) (i : Instruction) (c : Cursor) :
    ∃ flow d, Ends t b key i c flow d := by
  obtain ⟨o, q, hseek, hq⟩ := Position.seekKey_cases t key c.position
  cases hm : b.misses o with
  | false =>
    exact ⟨_, _, ends_of_hit hseek hm⟩
  | true =>
    obtain ⟨found, q', hstep⟩ := Position.step_cases t c.info b.isUpward hq
    exact ⟨_, _, ends_of_miss hseek hm hstep⟩

/-- The flow and the cursor are those of a search that is right: it goes on from the row that it is for, or jumps
because there is none. -/
def Hits (t : Tree) (b : Bound) (q : ℚ) (i : Instruction) (flow : Flow) (d : Cursor) : Prop :=
  (flow = .next ∧ ∃ k, d.OnRow t k ∧ b.IsNearest {k | k ∈ t.rowids ∧ b.Meets q k} k) ∨
    flow = .jump i.p2 ∧ ∀ k ∈ t.rowids, ¬ b.Meets q k

theorem hits_rounded {b : Bound} {q : ℚ} {flow : Flow} {d : Cursor} (h : Hits t (b.rounded q) (wholePart q) i flow d) :
    Hits t b q i flow d := by
  simpa only [Hits, Bound.IsNearest, Bound.meets_rounded, Bound.isUpward_rounded] using h

theorem ends_on_nearest (hs : t.Ascending) (b : Bound) (hland : t.Lands key (c.position.seekKey t key false)) :
    ∃ flow d, Ends t b key i c flow d ∧ Hits t b key i flow d := by
  obtain ⟨o, q, hseek, -⟩ := Position.seekKey_cases t key c.position
  rw [hseek] at hland
  obtain ⟨e, hplace, he, rfl, hnext, hprevious⟩ | ⟨hempty, hplace, rfl⟩ := hland
  · have hiff (k : ℤ) (hk : k ∈ t.rowids) := hs.meets_iff he hnext hprevious b hk
    have hmem {j : Nat} {e : Entry} (he : t.entries[j]? = some e) : e.key ∈ t.rowids :=
      ⟨e, List.mem_of_getElem? he, rfl⟩
    cases hm : b.misses (Ord.compare e.key key) with
    | false =>
      simp only [hm] at hiff
      refine ⟨_, _, ends_of_hit hseek hm, .inl ⟨?_, e.key, ⟨q.index, e, ⟨rfl, hplace, rfl⟩, he, rfl⟩, ?_⟩⟩
      · rw [Position.isHere, hplace]
        exact ite_self _
      · cases hup : b.isUpward with
        | true =>
          simp only [hup] at hiff
          exact Bound.isNearest_of_upward hup
            ⟨⟨hmem he, (hiff _ (hmem he)).mpr le_rfl⟩, fun k hk => (hiff k hk.1).mp hk.2⟩
        | false =>
          simp only [hup] at hiff
          exact Bound.isNearest_of_downward hup
            ⟨⟨hmem he, (hiff _ (hmem he)).mpr le_rfl⟩, fun k hk => (hiff k hk.1).mp hk.2⟩
    | true =>
      simp only [hm] at hiff
      cases hup : b.isUpward with
      | true =>
        simp only [hup] at hiff
        obtain ⟨q', hstep, hplace', hindex, hlt⟩ | ⟨q', hstep, hlast⟩ := Position.next_of_here c.info (t := t) hplace
        · have he' := List.getElem?_eq_getElem hlt
          refine ⟨_, _, ends_of_miss hseek hm (by rw [hup, if_pos rfl, hstep]),
            .inl ⟨rfl, _, ⟨q.index + 1, _, ⟨rfl, hplace', hindex⟩, he', rfl⟩, ?_⟩⟩
          refine Bound.isNearest_of_upward hup
            ⟨⟨hmem he', (hiff _ (hmem he')).mpr (hs.lt_next he he')⟩, fun k hk => ?_⟩
          obtain ⟨e', he'', hle⟩ := hs.next_le he hk.1 ((hiff k hk.1).mp hk.2)
          rw [Option.some.inj (he'.symm.trans he'')]
          exact hle
        · refine ⟨_, _, ends_of_miss hseek hm (by rw [hup, if_pos rfl, hstep]), .inr ⟨rfl, fun k hk hmeets => ?_⟩⟩
          obtain ⟨e', he', -⟩ := hs.next_le he hk ((hiff k hk).mp hmeets)
          exact absurd (List.getElem?_eq_some_iff.mp he').1 (not_lt.mpr hlast)
      | false =>
        simp only [hup] at hiff
        obtain ⟨q', hstep, hplace', hindex⟩ | ⟨q', hstep, hfirst⟩ := Position.previous_of_here t c.info hplace
        · have hlt : q'.index < t.entries.length := by
            have := (List.getElem?_eq_some_iff.mp he).1
            omega
          have he' := List.getElem?_eq_getElem hlt
          refine ⟨_, _, ends_of_miss hseek hm (by rw [hup, if_neg Bool.false_ne_true, hstep]),
            .inl ⟨rfl, _, ⟨q'.index, _, ⟨rfl, hplace', rfl⟩, he', rfl⟩, ?_⟩⟩
          refine Bound.isNearest_of_downward hup
            ⟨⟨hmem he', (hiff _ (hmem he')).mpr (hs.lt_next he' (hindex ▸ he))⟩, fun k hk => ?_⟩
          obtain ⟨j', e', hj', he'', hle⟩ := hs.le_previous he hk.1 ((hiff k hk.1).mp hk.2)
          obtain rfl : j' = q'.index := by omega
          rw [Option.some.inj (he'.symm.trans he'')]
          exact hle
        · refine ⟨_, _, ends_of_miss hseek hm (by rw [hup, if_neg Bool.false_ne_true, hstep]),
            .inr ⟨rfl, fun k hk hmeets => ?_⟩⟩
          obtain ⟨j', e', hj', -⟩ := hs.le_previous he hk ((hiff k hk).mp hmeets)
          omega
  · have hnone (k : ℤ) (hk : k ∈ t.rowids) : ¬ b.Meets key k := by
      obtain ⟨e, he, -⟩ := hk
      rw [hempty] at he
      cases he
    cases hm : b.misses .lt with
    | false =>
      refine ⟨_, _, ends_of_hit hseek hm, .inr ⟨?_, hnone⟩⟩
      rw [Position.isHere, hplace]
      cases b <;> first | rfl | cases hm
    | true =>
      obtain ⟨q', hstep⟩ := Position.next_of_nowhere c.info (t := t) hplace
      have hstep' : (if b.isUpward then q.next t c.info else q.previous t c.info) = (some false, q') := by
        cases b <;> first | exact hstep | cases hm
      exact ⟨_, _, ends_of_miss hseek hm hstep', .inr ⟨rfl, hnone⟩⟩

end Machine

/-! Keys. -/

namespace Cell

/-- The number that a key is: an integer, or a double with an integer part that a row number could be. -/
def keyValue? (c : Cell) : Option ℚ :=
  if c.flags.int then some c.int
  else if c.flags.real && c.real.isFinite && fitsWord (wholePart c.real.value) then some c.real.value
  else none

/-- The integer that is taken from a cell. -/
def wholeValue (c : Cell) : Except Fault Int :=
  if c.flags.int then .ok c.int
  else if c.flags.real then
    if c.real.isFinite then .ok (wholePart c.real.value)
    else .error (if c.real.isNaN then .badValue else .integerRange)
  else .ok (if c.flags.textual then c.readInt.value else 0)

/-- A text and no number yet, but the text of one. -/
def isNumeral (c : Cell) : Bool := c.flags.str && !c.flags.numeric && c.readReal.whole

/-- A key that is a text is read as a number. -/
def asKey (c : Cell) : Cell := if c.flags.str && !c.flags.numeric then c.applyNumericAffinity false else c

theorem keyValue?_cases {c : Cell} {q : ℚ} (h : c.keyValue? = some q) :
    c.flags.int = true ∧ q = c.int ∨
      c.flags.int = false ∧ c.flags.real = true ∧ c.real.isFinite = true ∧ q = c.real.value ∧
        fitsWord (wholePart q) = true := by
  rw [keyValue?] at h
  split at h
  · exact .inl ⟨‹_›, (Option.some.inj h).symm⟩
  · split at h
    · rename_i hint hreal
      simp only [Bool.and_eq_true] at hreal
      cases h
      exact .inr ⟨Bool.eq_false_iff.mpr hint, hreal.1.1, hreal.1.2, rfl, hreal.2⟩
    · cases h

theorem wholeValue_of_keyValue? {c : Cell} {q : ℚ} (h : c.keyValue? = some q) : c.wholeValue = .ok (wholePart q) := by
  obtain ⟨hint, rfl⟩ | ⟨hint, hreal, hfinite, rfl, -⟩ := keyValue?_cases h
  · rw [wholeValue, hint, if_pos rfl, wholePart_intCast]
  · simp [wholeValue, hint, hreal, hfinite]

theorem asKey_of_keyValue? {c : Cell} {q : ℚ} (h : c.keyValue? = some q) : c.asKey = c := by
  have hnumeric : c.flags.numeric = true := by
    obtain ⟨hint, -⟩ | ⟨-, hreal, -⟩ := keyValue?_cases h
    · rw [Flags.numeric, hint, Bool.true_or]
    · rw [Flags.numeric, hreal, Bool.or_true]
  rw [asKey, hnumeric, Bool.not_true, Bool.and_false, if_neg Bool.false_ne_true]

theorem asKey_of_not_isNumeral {c : Cell} (h : c.isNumeral = false) : c.asKey = c := by
  rw [isNumeral] at h
  rw [asKey, applyNumericAffinity_eq]
  split
  · rename_i htext
    rw [htext, Bool.true_and] at h
    rw [h, if_neg Bool.false_ne_true]
  · rfl

theorem numeric_asKey {c : Cell} (h : c.isNumeral = true) : c.asKey.flags.numeric = true := by
  rw [isNumeral, Bool.and_eq_true] at h
  rw [asKey, if_pos h.1, applyNumericAffinity_eq, if_pos h.2]
  split
  · rfl
  · exact Bool.or_true _

theorem exists_keyValue? {c : Cell} (h : c.flags.numeric = true)
    (hreal : c.flags.int = false → c.flags.real = true →
      c.real.isFinite = true ∧ fitsWord (wholePart c.real.value) = true) : ∃ q, c.keyValue? = some q := by
  rw [keyValue?]
  cases hint : c.flags.int with
  | true => exact ⟨_, rfl⟩
  | false =>
    rw [Flags.numeric, hint, Bool.false_or] at h
    obtain ⟨hfinite, hfits⟩ := hreal hint h
    rw [h, hfinite, hfits]
    exact ⟨_, rfl⟩

theorem exists_wholeValue {c : Cell} (h : c.flags.numeric = false) : ∃ n, c.wholeValue = .ok n := by
  rw [Flags.numeric, Bool.or_eq_false_iff] at h
  rw [wholeValue, h.1, h.2]
  exact ⟨_, rfl⟩

end Cell

theorem Bank.Obeys.intValue_run {b : Bank} {r : Nat} (h : b.Obeys Fact.True) (hr : r < b.reach) :
    ∃ t l, (b.knowing t l).Obeys Fact.True ∧ intValue r b =
      match (b.cellAt r).wholeValue with
      | .ok n => .ok n (b.knowing t l)
      | .error e => .error e (b.knowing t l) := by
  obtain ⟨t, l, hlook, h₁⟩ := h.flags_run Fact.law_true hr
  refine ⟨t, l, h₁, (bind_of_ok hlook).trans ?_⟩
  rw [Cell.wholeValue]
  cases hint : (b.cellAt r).flags.int with
  | true => exact h₁.int_run hr
  | false =>
    cases hreal : (b.cellAt r).flags.real with
    | true =>
      obtain ⟨a, hrun, ha⟩ := h₁.real_run hr
      refine (bind_of_ok hrun).trans ?_
      rw [cellAt_knowing] at ha
      cases hx : (b.cellAt r).real.isFinite with
      | true => exact ha.truncate_run hx
      | false => exact ha.truncate_of_not_isFinite hx
    | false => cases htext : (b.cellAt r).flags.textual <;> rfl

namespace Machine

variable {m : Machine} {c d : Cursor} {t : Tree} {i : Instruction} {q : ℚ} {flow : Flow}

/-- A search for a key in a register is about to begin in a table, and all that is known about the registers is
true. -/
structure Seeks (m : Machine) (i : Instruction) (c : Cursor) (t : Tree) : Prop where
  opens : m.Opens i.p1 c
  table : c.isTable = true
  ordered : c.isOrdered = true
  tree : m.treeOf? c = some t
  exit : 0 < i.p2
  key_nonneg : 0 ≤ i.p3
  key_lt : i.p3 < m.bank.reach
  known : m.bank.Obeys Fact.True

def keyCell (m : Machine) (i : Instruction) : Cell := m.bank.cellAt i.p3.toNat

theorem rounded_of_int (b : Bound) (n : ℤ) : b.rounded n = b := by
  rw [Bound.rounded, wholePart_intCast, if_neg (lt_irrefl _), if_neg (lt_irrefl _)]

theorem rounded_of_stands {a : Number} {x : Double} (b : Bound) (ha : a.Stands x) (hx : x.isFinite = true) :
    (if a.lt (.int (wholePart x.value)) then b.forLarger
      else if a.gt (.int (wholePart x.value)) then b.forSmaller else b) = b.rounded x.value := by
  rw [Bound.rounded, Number.lt, Number.gt, ha.cmp?_int hx]
  simp only [beq_iff_eq, Option.some.injEq, compare_lt_iff_lt, compare_gt_iff_gt]

theorem rounded_of_lt {x : Double} (b : Bound) (hx : x.isFinite = true) (hfits : fitsWord (wholePart x.value) = true) :
    (if x.lt (.ofInt (wholePart x.value)) then b.forLarger
      else if (Double.ofInt (wholePart x.value)).lt x then b.forSmaller else b) = b.rounded x.value := by
  obtain ⟨hvalue, hnan⟩ := Double.value_ofInt_wholePart hfits
  simp only [Bound.rounded, Double.lt, Double.isNaN_of_isFinite hx, hnan, Bool.not_false, Bool.true_and,
    decide_eq_true_eq, Double.key_lt_iff, hvalue]

theorem trackedSearch_of_value {r : Nat} (hb : m.bank.Obeys Fact.True) (hr : r < m.bank.reach) (hexit : 0 < i.p2)
    (ho : m.Opens i.p1 c) (ht : m.treeOf? c = some t) (hq : (m.bank.cellAt r).keyValue? = some q) {b : Bound}
    (hends : Ends t (b.rounded q) (wholePart q) i c flow d) :
    ∃ s l, trackedSearch b i r (m.bank.cellAt r).flags m =
      .ok flow ((m.withCursor i.p1 d).withBank (m.bank.knowing s l)) := by
  obtain ⟨s, l, h₁, hint⟩ := hb.intValue_run hr
  rw [Cell.wholeValue_of_keyValue? hq] at hint
  refine ⟨s, l, ?_⟩
  have hseek := hends.2.2 (m.withBank (m.bank.knowing s l)) ho ht
  -- both kinds of number end in the same search
  have hrest (a : Number)
      (ha : (if a.lt (.int (wholePart q)) then b.forLarger else if a.gt (.int (wholePart q)) then b.forSmaller else b) =
        b.rounded q) (hfits : fitsWord (wholePart q) = true) :
      (do
        let b := if a.lt (.int (wholePart q)) then b.forLarger else if a.gt (.int (wholePart q)) then b.forSmaller else b
        let flow ← Step.seekTable b (← Tracked.rowKey (wholePart q)) i
        check (decide (0 < i.p2))
        return flow : MachineM Flow) (m.withBank (m.bank.knowing s l)) =
        .ok flow ((m.withCursor i.p1 d).withBank (m.bank.knowing s l)) := by
    have hkey : Tracked.rowKey (wholePart q) (m.withBank (m.bank.knowing s l)) =
        .ok (wholePart q) (m.withBank (m.bank.knowing s l)) := by
      rw [Tracked.rowKey, hfits]
      rfl
    simp only [ha]
    rw [bind_of_ok hkey, bind_of_ok hseek, bind_of_ok (check_run (decide_eq_true hexit))]
    rfl
  refine (bind_of_ok (lift_of_ok hint)).trans ?_
  obtain ⟨hflag, rfl⟩ | ⟨hflag, hreal, hfinite, rfl, hfits⟩ := Cell.keyValue?_cases hq
  · rw [hflag]
    refine hrest (.int (wholePart _)) ?_ ?_
    · rw [rounded_of_int]
      simp [Number.lt, Number.gt, Number.cmp?]
    · rw [wholePart_intCast]
      exact fitsWord_wordToInt _
  · obtain ⟨a, hrun, ha⟩ := h₁.real_run hr
    rw [hflag, hreal]
    exact (bind_of_ok (lift_of_ok hrun)).trans (hrest a (rounded_of_stands b ha hfinite) hfits)

theorem trackedSearch_of_other {r : Nat} {f : Flags} (hb : m.bank.Obeys Fact.True) (hr : r < m.bank.reach)
    (hf : f.numeric = false) (b : Bound) (i : Instruction) :
    ∃ s l, trackedSearch b i r f m =
      match (m.bank.cellAt r).wholeValue with
      | .ok _ => .ok (.jump i.p2) (m.withBank (m.bank.knowing s l))
      | .error e => .error e (m.withBank (m.bank.knowing s l)) := by
  obtain ⟨s, l, -, hint⟩ := hb.intValue_run hr
  refine ⟨s, l, ?_⟩
  rw [Flags.numeric, Bool.or_eq_false_iff] at hf
  cases hvalue : (m.bank.cellAt r).wholeValue with
  | ok n =>
    rw [hvalue] at hint
    refine (bind_of_ok (lift_of_ok hint)).trans ?_
    rw [hf.1, hf.2]
    rfl
  | error e =>
    rw [hvalue] at hint
    exact bind_of_error (lift_of_error hint)

theorem directSearch_of_value {k : Cell} {b : Bound} (ho : m.Opens i.p1 c) (ht : m.treeOf? c = some t)
    (hq : k.keyValue? = some q) (hends : Ends t (b.rounded q) (wholePart q) i c flow d) :
    directSearch b i k m = .ok flow (m.withCursor i.p1 d) := by
  have hseek := hends.2.2 m ho ht
  obtain ⟨hint, rfl⟩ | ⟨hint, hreal, hfinite, rfl, hfits⟩ := Cell.keyValue?_cases hq
  · rw [rounded_of_int, wholePart_intCast] at hseek
    rw [directSearch, hint, if_pos rfl, Cell.intValue, hint, if_pos rfl, hseek]
  · have hkey : k.intValue = wholePart k.real.value := by
      rw [Cell.intValue, hint, hreal, if_neg Bool.false_ne_true, if_pos rfl, Double.toInt64Clamped_eq hfinite hfits]
    rw [directSearch, hint, hreal, hkey, rounded_of_lt b hfinite hfits, if_neg Bool.false_ne_true]
    exact hseek

theorem directSearch_eq (b : Bound) (i : Instruction) {k : Cell} (hk : k.flags.numeric = true) :
    ∃ b' key, directSearch b i k = Step.seekTable b' key i := by
  rw [directSearch]
  cases hint : k.flags.int with
  | true => exact ⟨_, _, rfl⟩
  | false =>
    rw [Flags.numeric, hint, Bool.false_or] at hk
    rw [hk]
    exact ⟨_, _, rfl⟩

namespace Seeks

theorem key_toNat_lt (h : m.Seeks i c t) : i.p3.toNat < m.bank.reach := by
  have := h.key_nonneg
  have := h.key_lt
  omega

/-- Both rules read a text as a number before they go on; the tracked rule goes on with the marks from before. -/
theorem tracked_eq (h : m.Seeks i c t) (b : Bound) :
    ∃ b', b'.Obeys Fact.True ∧ b'.reach = m.bank.reach ∧
      b'.cells = (m.bank.withCell i.p3.toNat (m.keyCell i).asKey).cells ∧
      Tracked.seekOrdered b i m =
        trackedSearch b i i.p3.toNat (m.keyCell i).flags ((m.withCursor i.p1 c.shown).withBank b') := by
  obtain ⟨hpseudo, htree⟩ := source_of_tree h.tree
  have hexit := h.exit
  obtain ⟨s, l, hlook, h₁⟩ := h.known.flags_run Fact.law_true h.key_toNat_lt
  have hregister := lift_of_read (m := m.withCursor i.p1 c.shown)
    (Bank.register_run (b := m.bank) h.key_nonneg h.key_lt)
  have hlook' := lift_of_ok (m := m.withCursor i.p1 c.shown) hlook
  have hstart : Tracked.seekOrdered b i m =
      (if (m.keyCell i).flags.str && !(m.keyCell i).flags.int && !(m.keyCell i).flags.real then do
          Bank.applyNumericAffinity i.p3.toNat false
          trackedSearch b i i.p3.toNat (m.keyCell i).flags
        else trackedSearch b i i.p3.toNat (m.keyCell i).flags)
        ((m.withCursor i.p1 c.shown).withBank (m.bank.knowing s l)) := by
    rw [Tracked.seekOrdered, bind_of_ok h.opens.cursor_run,
      bind_of_ok (check_run (by simp; omega)), bind_of_ok (check_run (by simp [hpseudo, h.ordered, htree])),
      bind_of_ok (h.opens.modifyCursor_run _), if_pos h.table]
    exact (bind_of_ok hregister).trans (bind_of_ok hlook')
  have htext : ((m.keyCell i).flags.str && !(m.keyCell i).flags.int && !(m.keyCell i).flags.real) =
      ((m.keyCell i).flags.str && !(m.keyCell i).flags.numeric) := by
    rw [Flags.numeric, Bool.not_or, Bool.and_assoc]
  rw [hstart, htext, Cell.asKey]
  cases (m.keyCell i).flags.str && !(m.keyCell i).flags.numeric with
  | true =>
    obtain ⟨s', l', hread, h₂⟩ := h₁.direct_run Fact.law_true h.key_toNat_lt fun _ => Cell.applyNumericAffinity false
    refine ⟨_, h₂, Bank.reach_put _ _ _, ?_, bind_of_ok (lift_of_ok hread)⟩
    refine (Bank.cells_put_congr (a := (m.bank.knowing s l).renewed) (d := m.bank) rfl i.p3.toNat _).trans ?_
    rw [Bank.put, Bank.cellAt_knowing, Cell.overwrites_applyNumericAffinity]
    rfl
  | false =>
    refine ⟨_, h₁, rfl, ?_, rfl⟩
    rw [if_neg Bool.false_ne_true, keyCell, Bank.withCell_cellAt]
    rfl

theorem direct_eq (h : m.Seeks i c t) (b : Bound) :
    Direct.seekOrdered b i m = directSearch b i (m.keyCell i).asKey
      ((m.withCursor i.p1 c.shown).withBank (m.bank.withCell i.p3.toNat (m.keyCell i).asKey)) := by
  have hslot := lift_of_read (m := m.withCursor i.p1 c.shown) (Bank.slot_run (b := m.bank) h.key_nonneg)
  have hcell (b : Bank) := lift_of_read (m := (m.withCursor i.p1 c.shown).withBank b) (Bank.cell_run b i.p3.toNat)
  have hsize := h.known.lt_size h.key_toNat_lt
  rw [Direct.seekOrdered, bind_of_ok h.opens.cursor_run, bind_of_ok (h.opens.modifyCursor_run _)]
  refine (bind_of_ok hslot).trans ?_
  rw [if_pos h.table]
  refine (bind_of_ok (hcell m.bank)).trans ((bind_of_ok (hcell m.bank)).trans ?_)
  rw [Cell.asKey, keyCell]
  cases (m.bank.cellAt i.p3.toNat).flags.str && !(m.bank.cellAt i.p3.toNat).flags.numeric with
  | true =>
    have hread := lift_of_ok (m := m.withCursor i.p1 c.shown)
      (Bank.modifyCell_run m.bank i.p3.toNat (Cell.applyNumericAffinity false))
    refine (bind_of_ok hread).trans ((bind_of_ok (hcell _)).trans ?_)
    rw [Bank.cellAt_withCell_self hsize]
    rfl
  | false =>
    refine (bind_of_ok (hcell m.bank)).trans ?_
    rw [if_neg Bool.false_ne_true, Bank.withCell_cellAt]
    rfl

theorem tracked_run (h : m.Seeks i c t) {b : Bound} (hq : (m.keyCell i).keyValue? = some q)
    (hends : Ends t (b.rounded q) (wholePart q) i c.shown flow d) :
    ∃ b', Tracked.seekOrdered b i m = .ok flow ((m.withCursor i.p1 d).withBank b') ∧ b'.cells = m.bank.cells := by
  obtain ⟨b', hb, hreach, hcells, hrun⟩ := h.tracked_eq b
  have hkey : (m.keyCell i).asKey = m.keyCell i := Cell.asKey_of_keyValue? hq
  rw [hkey, keyCell, Bank.withCell_cellAt] at hcells
  have hcell : b'.cellAt i.p3.toNat = m.keyCell i := by rw [Bank.cellAt, hcells, keyCell, Bank.cellAt]
  obtain ⟨s, l, hsearch⟩ := trackedSearch_of_value (m := (m.withCursor i.p1 c.shown).withBank b') (r := i.p3.toNat)
    (b := b) hb (hreach ▸ h.key_toNat_lt) h.exit (h.opens.withCursor c.shown) (t := t) h.tree
    (by rw [bank_withBank, hcell]; exact hq) hends
  rw [bank_withBank, hcell, ← hrun] at hsearch
  refine ⟨b'.knowing s l, hsearch.trans ?_, hcells⟩
  rw [← withCursor_withCursor m i.p1 c.shown d]
  rfl

/-- The tracked rule finds nothing for what was no number before. -/
theorem tracked_other (h : m.Seeks i c t) (hf : (m.keyCell i).flags.numeric = false) (b : Bound) :
    ∃ b', b'.cells = (m.bank.withCell i.p3.toNat (m.keyCell i).asKey).cells ∧ Tracked.seekOrdered b i m =
      match (m.keyCell i).asKey.wholeValue with
      | .ok _ => .ok (.jump i.p2) ((m.withCursor i.p1 c.shown).withBank b')
      | .error e => .error e ((m.withCursor i.p1 c.shown).withBank b') := by
  obtain ⟨b', hb, hreach, hcells, hrun⟩ := h.tracked_eq b
  have hcell : b'.cellAt i.p3.toNat = (m.keyCell i).asKey := by
    rw [Bank.cellAt, hcells]
    exact Bank.cellAt_withCell_self (h.known.lt_size h.key_toNat_lt) _
  obtain ⟨s, l, hother⟩ := trackedSearch_of_other (m := (m.withCursor i.p1 c.shown).withBank b') hb
    (hreach ▸ h.key_toNat_lt) hf b i
  rw [bank_withBank, hcell, ← hrun] at hother
  exact ⟨b'.knowing s l, hcells, hother⟩

theorem direct_run (h : m.Seeks i c t) {b : Bound} (hq : (m.keyCell i).asKey.keyValue? = some q)
    (hends : Ends t (b.rounded q) (wholePart q) i c.shown flow d) :
    Direct.seekOrdered b i m =
      .ok flow ((m.withCursor i.p1 d).withBank (m.bank.withCell i.p3.toNat (m.keyCell i).asKey)) := by
  have hsearch := directSearch_of_value
    (m := (m.withCursor i.p1 c.shown).withBank (m.bank.withCell i.p3.toNat (m.keyCell i).asKey))
    (c := c.shown) (t := t) (h.opens.withCursor c.shown) h.tree hq hends
  rw [h.direct_eq]
  refine hsearch.trans ?_
  rw [← withCursor_withCursor m i.p1 c.shown d]
  rfl

theorem direct_ends (h : m.Seeks i c t) (hk : (m.keyCell i).asKey.flags.numeric = true) (b : Bound) :
    ∃ flow d, Direct.seekOrdered b i m =
        .ok flow ((m.withCursor i.p1 d).withBank (m.bank.withCell i.p3.toNat (m.keyCell i).asKey)) ∧
      ∀ q, (m.keyCell i).asKey.keyValue? = some q → t.Ascending →
        t.Lands (wholePart q) (c.position.seekKey t (wholePart q) false) → Hits t b q i flow d := by
  cases hq : (m.keyCell i).asKey.keyValue? with
  | some q =>
    by_cases hgood : t.Ascending ∧ t.Lands (wholePart q) (c.position.seekKey t (wholePart q) false)
    · obtain ⟨flow, d, hends, hhits⟩ := ends_on_nearest (i := i) (c := c.shown) hgood.1 (b.rounded q) hgood.2
      refine ⟨flow, d, h.direct_run hq hends, fun q' hq' _ _ => ?_⟩
      cases hq'
      exact hits_rounded hhits
    · obtain ⟨flow, d, hends⟩ := exists_ends t (b.rounded q) (wholePart q) i c.shown
      refine ⟨flow, d, h.direct_run hq hends, fun q' hq' hs hland => ?_⟩
      cases hq'
      exact absurd ⟨hs, hland⟩ hgood
  | none =>
    obtain ⟨b', key, hsearch⟩ := directSearch_eq b i hk
    obtain ⟨flow, d, hends⟩ := exists_ends t b' key i c.shown
    refine ⟨flow, d, ?_, fun q hq' => by cases hq'⟩
    rw [h.direct_eq, hsearch, ← withCursor_withCursor m i.p1 c.shown d]
    exact hends.2.2 ((m.withCursor i.p1 c.shown).withBank _) (h.opens.withCursor c.shown) h.tree

end Seeks

/-- A search for an integer or a double ends on the row with the least number that is not below the key, or above
it, or with the greatest one that is not above the key, or below it. It jumps if there is no such row. -/
theorem seekOrdered_finds_nearest (h : m.Seeks i c t) (hs : t.Ascending) (hq : (m.keyCell i).keyValue? = some q)
    (hland : t.Lands (wholePart q) (c.position.seekKey t (wholePart q) false)) (b : Bound) :
    ∃ flow d b', Tracked.seekOrdered b i m = .ok flow ((m.withCursor i.p1 d).withBank b') ∧
      b'.cells = m.bank.cells ∧ c.Alike d ∧ d.nullRow = false ∧
      ((flow = .next ∧ ∃ k, d.OnRow t k ∧ b.IsNearest {k | k ∈ t.rowids ∧ b.Meets q k} k) ∨
        flow = .jump i.p2 ∧ ∀ k ∈ t.rowids, ¬ b.Meets q k) := by
  obtain ⟨flow, d, hends, hhits⟩ := ends_on_nearest (i := i) (c := c.shown) hs (b.rounded q) hland
  obtain ⟨b', hrun, hcells⟩ := h.tracked_run hq hends
  exact ⟨flow, d, b', hrun, hcells, ⟨hends.1.1, hends.1.2, hends.1.3, hends.1.4⟩, hends.2.1, hits_rounded hhits⟩

/-- The tracked rule and the direct one take the same branch, leave the cursor at the same place and the registers with
the same content, unless the key is the text of a number. Such a text both rules read as that number, which is then
in the register. The direct rule searches for it, and its search is right; the tracked rule, which goes by what the
register held before, jumps without one, and refuses a number that is not finite. -/
theorem seekOrdered_agrees_unless_numeral (h : m.Seeks i c t) (b : Bound)
    (hreal : (m.keyCell i).flags.int = false → (m.keyCell i).flags.real = true →
      (m.keyCell i).real.isFinite = true ∧ fitsWord (wholePart (m.keyCell i).real.value) = true) :
    ((m.keyCell i).isNumeral = false →
      ∃ flow d b', Tracked.seekOrdered b i m = .ok flow ((m.withCursor i.p1 d).withBank b') ∧
        Direct.seekOrdered b i m = .ok flow (m.withCursor i.p1 d) ∧ b'.cells = m.bank.cells) ∧
    ((m.keyCell i).isNumeral = true →
      ∃ flow d b₁ b₂, Direct.seekOrdered b i m = .ok flow ((m.withCursor i.p1 d).withBank b₂) ∧ b₁.cells = b₂.cells ∧
        b₂.cellAt i.p3.toNat = (m.keyCell i).applyNumericAffinity false ∧
        (∀ q, (b₂.cellAt i.p3.toNat).keyValue? = some q → t.Ascending →
          t.Lands (wholePart q) (c.position.seekKey t (wholePart q) false) → Hits t b q i flow d) ∧
        Tracked.seekOrdered b i m =
          match (b₂.cellAt i.p3.toNat).wholeValue with
          | .ok _ => .ok (.jump i.p2) ((m.withCursor i.p1 { c with nullRow := false }).withBank b₁)
          | .error e => .error e ((m.withCursor i.p1 { c with nullRow := false }).withBank b₁)) := by
  constructor
  · intro hnumeral
    have hkey := Cell.asKey_of_not_isNumeral hnumeral
    cases hnumeric : (m.keyCell i).flags.numeric with
    | true =>
      obtain ⟨q, hq⟩ := Cell.exists_keyValue? hnumeric hreal
      obtain ⟨flow, d, hends⟩ := exists_ends t (b.rounded q) (wholePart q) i c.shown
      obtain ⟨b', htracked, hcells⟩ := h.tracked_run hq hends
      have hdirect := h.direct_run (by rwa [hkey]) hends
      rw [hkey, keyCell, Bank.withCell_cellAt] at hdirect
      exact ⟨flow, d, b', htracked, hdirect, hcells⟩
    | false =>
      obtain ⟨b', hcells, htracked⟩ := h.tracked_other hnumeric b
      obtain ⟨n, hn⟩ := Cell.exists_wholeValue hnumeric
      rw [hkey, hn] at htracked
      rw [hkey, keyCell, Bank.withCell_cellAt] at hcells
      refine ⟨.jump i.p2, c.shown, b', htracked, ?_, hcells⟩
      rw [Flags.numeric, Bool.or_eq_false_iff] at hnumeric
      rw [h.direct_eq, hkey, directSearch, hnumeric.1, hnumeric.2, keyCell, Bank.withCell_cellAt]
      rfl
  · intro hnumeral
    have hcell := Bank.cellAt_withCell_self (h.known.lt_size h.key_toNat_lt) (m.keyCell i).asKey
    obtain ⟨flow, d, hdirect, hhits⟩ := h.direct_ends (Cell.numeric_asKey hnumeral) b
    rw [Cell.isNumeral, Bool.and_eq_true, Bool.and_eq_true, Bool.not_eq_true'] at hnumeral
    obtain ⟨b₁, hcells, htracked⟩ := h.tracked_other hnumeral.1.2 b
    refine ⟨flow, d, b₁, _, hdirect, hcells, ?_, ?_, ?_⟩
    · rw [hcell, Cell.asKey, hnumeral.1.1, hnumeral.1.2]
      rfl
    · rw [hcell]
      exact hhits
    · rw [hcell]
      exact htracked

/-- The rows -3, 2 and 5. -/
def threeRows : Tree where
  isTable := true
  entries := [-3, 2, 5].map fun k => { key := k, record := [] }
  spread := .single 2 3

/-- A machine with a cursor on the rows and a key. -/
def seeking (key : Cell) : Machine where
  bank := Bank.ofCells #[key] true true 0
  program := #[]
  status := { useFlagCache := true }
  database := default
  cursors := #[some { source := .own threeRows { size := 1 }, isTable := true, isOrdered := true }]
  once := #[]
  registers := 0
  width := 0

theorem seeking_seeks (key : Cell) (op : Opcode) :
    (seeking key).Seeks ⟨op, 0, 9, 0, .none, 0⟩
      { source := .own threeRows { size := 1 }, isTable := true, isOrdered := true } threeRows where
  opens := ⟨le_rfl, rfl⟩
  table := rfl
  ordered := rfl
  tree := rfl
  exit := Int.ofNat_succ_pos 8
  key_nonneg := le_rfl
  key_lt := Int.zero_lt_one
  known := (Bank.trusts_ofCells _ true 0).obeys

theorem threeRows_ascending : threeRows.Ascending := by
  unfold Tree.Ascending
  decide

theorem mem_threeRows {k : ℤ} : k ∈ threeRows.rowids ↔ k = -3 ∨ k = 2 ∨ k = 5 := by
  simp [Tree.rowids, threeRows, eq_comm]

/-- The double with the value -5/2. -/
def minusTwoAndHalf : Double := ⟨0xC004000000000000⟩

theorem value_minusTwoAndHalf : minusTwoAndHalf.value = -5 / 2 := by
  have hmant : minusTwoAndHalf.scaled.mant = 5629499534213120 := by decide
  have hexp : minusTwoAndHalf.scaled.exp = -51 := by decide
  rw [Double.value, show minusTwoAndHalf.neg = true from rfl, hmant, hexp]
  norm_num

/-- The last row that is not above -5/2 is the row -3. -/
theorem seekOrdered_finds_nearest_fraction :
    ∃ d b', Tracked.seekOrdered .le ⟨.seekLE, 0, 9, 0, .none, 0⟩ (seeking (.ofReal minusTwoAndHalf)) =
      .ok .next (((seeking (.ofReal minusTwoAndHalf)).withCursor 0 d).withBank b') ∧ d.OnRow threeRows (-3) := by
  have hwhole : wholePart (-5 / 2) = -2 := by
    rw [wholePart, if_neg (by norm_num)]
    norm_num [Int.ceil_eq_iff]
  have hq : ((seeking (.ofReal minusTwoAndHalf)).keyCell ⟨.seekLE, 0, 9, 0, .none, 0⟩).keyValue? = some (-5 / 2) := by
    have hvalue : (Cell.ofReal minusTwoAndHalf).real.value = -5 / 2 := value_minusTwoAndHalf
    rw [show (seeking _).keyCell _ = Cell.ofReal minusTwoAndHalf from rfl, Cell.keyValue?, hvalue, hwhole]
    rfl
  have hland : threeRows.Lands (wholePart (-5 / 2)) (({} : Position).seekKey threeRows (wholePart (-5 / 2)) false) := by
    rw [hwhole]
    refine .inl ⟨_, rfl, rfl, rfl, fun _ e' he' => ?_, fun h => by cases h⟩
    cases he'
    decide
  obtain ⟨flow, d, b', hrun, -, -, -, ⟨rfl, k, hrow, ⟨hmem, hmeets⟩, -⟩ | ⟨-, hnone⟩⟩ :=
    seekOrdered_finds_nearest (seeking_seeks _ _) threeRows_ascending hq hland .le
  · refine ⟨d, b', hrun, ?_⟩
    have hbelow : (k : ℚ) ≤ -5 / 2 := hmeets
    obtain rfl | rfl | rfl := mem_threeRows.mp hmem
    · exact hrow
    · norm_num at hbelow
    · norm_num at hbelow
  · refine absurd ?_ (hnone (-3) (mem_threeRows.mpr (.inl rfl)))
    norm_num [Bound.Meets]

def two : Cell := .ofValue 0 (.text [50])

theorem keyValue?_two : (two.applyNumericAffinity false).keyValue? = some ((2 : ℤ) : ℚ) := by
  have hint : (two.applyNumericAffinity false).flags.int = true ∧ (two.applyNumericAffinity false).int = 2 := by
    decide +kernel
  rw [Cell.keyValue?, hint.1, if_pos rfl, hint.2]

/-- The direct rule finds the row 2 for its text, and the tracked rule does not. -/
theorem seekOrdered_agrees_unless_numeral_two :
    ∃ d m₁ m₂, Direct.seekOrdered .ge ⟨.seekGE, 0, 9, 0, .none, 0⟩ (seeking two) = .ok .next m₂ ∧ m₂.Opens 0 d ∧
      d.OnRow threeRows 2 ∧
      Tracked.seekOrdered .ge ⟨.seekGE, 0, 9, 0, .none, 0⟩ (seeking two) = .ok (.jump 9) m₁ := by
  have hseeks := seeking_seeks two .seekGE
  obtain ⟨flow, d, b₁, b₂, hdirect, -, hcell, hhits, htracked⟩ :=
    (seekOrdered_agrees_unless_numeral hseeks .ge (fun _ h => by cases h)).2 (by decide +kernel)
  rw [hcell] at hhits htracked
  have hq := keyValue?_two
  have hland : threeRows.Lands (wholePart ((2 : ℤ) : ℚ))
      (({} : Position).seekKey threeRows (wholePart ((2 : ℤ) : ℚ)) false) := by
    rw [wholePart_intCast]
    exact .inl ⟨_, rfl, rfl, rfl, (nomatch ·), (nomatch ·)⟩
  rw [show (seeking two).keyCell ⟨.seekGE, 0, 9, 0, .none, 0⟩ = two from rfl] at hhits htracked
  rw [Cell.wholeValue_of_keyValue? hq] at htracked
  obtain ⟨rfl, k, hrow, ⟨hmem, hmeets⟩, hleast⟩ | ⟨-, hnone⟩ := hhits _ hq threeRows_ascending hland
  · refine ⟨d, _, _, hdirect, hseeks.opens.withCursor d, ?_, htracked⟩
    have hle : k ≤ 2 := hleast ⟨mem_threeRows.mpr (.inr (.inl rfl)), le_rfl⟩
    have hge : ((2 : ℤ) : ℚ) ≤ k := hmeets
    obtain rfl : k = 2 := le_antisymm hle (Int.cast_le.mp hge)
    exact hrow
  · exact absurd le_rfl (hnone 2 (mem_threeRows.mpr (.inr (.inl rfl))))

end Machine

end QueryMachine
