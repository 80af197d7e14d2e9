import Mathlib
import QueryMachine.Proofs.Deciding

/-!
Jumps and truth values from two registers. The tracked rule decides as the direct rule does, with four
exceptions: it refuses to compare a number with a string as numbers; it finds a number behind a string;
where no values count as equal it takes equality for its opposite; and it leaves other marks on a blob
with counted zeros that is compared with itself.
-/

namespace QueryMachine

/-- A register that can be compared: no value, an integer, a double that is not a NaN, a text or a blob,
which may have counted zeros. -/
structure Cell.Operand (c : Cell) : Prop where
  kind : [c.flags.null, c.flags.int, c.flags.real, c.flags.str, c.flags.blob].count true = 1
  zeros : c.flags.zero = true → c.flags.blob = true
  ordered : c.flags.real = true → c.real.isNaN = false

theorem Double.order_eq {x y : Double} (hx : x.isNaN = false) (hy : y.isNaN = false) :
    (if x.lt y then .lt else if y.lt x then .gt else .eq) = Ord.compare x.key y.key := by
  simp only [Double.lt, hx, hy, Bool.not_false, Bool.true_and, decide_eq_true_eq, Int.compare_eq_ite_lt]

theorem Cell.compare_numbers (coll : Option Collation) {c d : Cell} (hc : c.flags.numeric = true)
    (hd : d.flags.numeric = true) (hcnull : c.flags.null = false) (hdnull : d.flags.null = false)
    (hcn : c.rounded.isNaN = false) (hdn : d.rounded.isNaN = false) :
    Cell.compare coll c d = if c.flags.int && d.flags.int then Ord.compare c.int d.int
      else Ord.compare c.rounded.key d.rounded.key := by
  rw [← Double.order_eq hcn hdn]
  simp only [Cell.compare, hcnull, hdnull, hc, hd, Bool.or_self, Bool.not_true, Bool.false_eq_true, if_false, if_true]
  rfl

/-- The tracked order in terms of the direct one: behind a string, a number is found on the other side. -/
theorem Relation.holds_judged (rel : Relation) (coll : Option Collation) {c d : Cell} (hc : c.flags.null = false)
    (hd : d.flags.null = false) : rel.holds (Cell.judged coll c d) =
      (if c.flags.numeric && !d.flags.numeric then rel.converse else rel).holds (Cell.compare coll c d) := by
  rw [Cell.judged]
  split
  · rename_i hclash
    rw [Bool.and_eq_true, Bool.not_eq_true'] at hclash
    have hlt : Cell.compare coll c d = .lt := by simp [Cell.compare, hc, hd, hclash]
    rw [hlt, Relation.holds_gt]
  · rfl

theorem Cell.flags_expandBlob (n : Nat) (c : Cell) :
    (c.expandBlob n).flags.null = c.flags.null ∧ (c.expandBlob n).flags.numeric = c.flags.numeric := by
  rw [expandBlob]
  split
  · dsimp only
    rw [flags_grow]
    exact ⟨rfl, rfl⟩
  · exact ⟨rfl, rfl⟩

theorem Cell.zero_expandBlob (n : Nat) (c : Cell) : (c.expandBlob n).flags.zero = false := by
  rw [expandBlob]
  split
  · rfl
  · exact Bool.eq_false_of_not_eq_true ‹_›

theorem Cell.flags_stringify (n : Nat) (c : Cell) :
    (c.stringify n true).flags.null = c.flags.null ∧ (c.stringify n true).flags.str = true ∧
      (c.stringify n true).flags.numeric = false ∧
      (c.flags.zero = false → (c.stringify n true).flags.zero = false) := by
  simp only [stringify, clearAndResize, Flags.numeric, Bool.not_true, Bool.and_false, Bool.or_self, true_and]
  split
  · rw [flags_grow]
    exact ⟨rfl, id⟩
  · exact ⟨rfl, fun _ => rfl⟩

theorem Cell.payload_stringify (n : Nat) (force : Bool) (c : Cell) : (c.stringify n force).payload = c.payload := by
  have hgrow : (c.grow n 32 false).payload = c.payload := by
    simp only [grow]
    cases c.own with
    | none => rfl
    | some own =>
      dsimp only
      split <;> rfl
  simp only [stringify, clearAndResize]
  split <;> exact hgrow

theorem Cell.own_stringify (n : Nat) (force : Bool) (c : Cell) :
    (c.stringify n force).own = c.own ∨ (c.stringify n force).own = some n :=
  own_clearAndResize n 32 c

theorem Cell.data_of_seeing {c d : Cell} {b : Buffer} (h : (c.seeing d).data = some b) :
    ∃ e, d.data = some e ∧ e.name = b.name := by
  unfold seeing at h
  split at h
  · rename_i x shared _ hd
    split at h
    · cases h
      exact ⟨shared, hd, rfl⟩
    · exact ⟨b, h, rfl⟩
  · exact ⟨b, h, rfl⟩

theorem Cell.compare_self (coll : Option Collation) {c : Cell} (hnull : c.flags.null = false)
    (hnumeric : c.flags.numeric = false) : Cell.compare coll c c = .eq := by
  rw [Cell.compare, hnull, hnumeric, Cell.compareStrings]
  cases c.flags.str with
  | true => exact @Std.ReflCmp.compare_self _ (coll.getD .binary).compare _ _
  | false => exact @Std.ReflCmp.compare_self _ Bytes.compare _ _

theorem Cell.view_eq_of_number {c d : Cell} (hstr : c.flags.str = false) (hblob : c.flags.blob = false)
    (hflags : d.flags = c.flags) (hpayload : d.payload = c.payload) : d.view = c.view := by
  simp only [Content.view, hflags, Flags.textual, hstr, hblob, Content.int, Content.real, hpayload, Bool.or_self, Bool.false_and,
    Bool.false_eq_true, if_false]

theorem Cell.Operand.number {c : Cell} (h : c.Operand) (hc : c.flags.numeric = true) :
    c.flags.null = false ∧ (c.flags.str = false ∧ c.flags.blob = false) ∧ c.flags.zero = false ∧
      c.flags.real = !c.flags.int := by
  have hkind := h.kind
  have hzeros := h.zeros
  rw [Flags.numeric] at hc
  revert hkind hzeros hc
  generalize c.flags.null = n, c.flags.int = i, c.flags.real = x, c.flags.str = s, c.flags.blob = b, c.flags.zero = z
  revert n i x s b z
  decide

theorem Cell.Operand.counted {c : Cell} (h : c.Operand) (hz : c.flags.zero = true) :
    c.flags.null = false ∧ c.flags.numeric = false := by
  have hkind := h.kind
  have hblob := h.zeros hz
  rw [Flags.numeric]
  revert hkind hblob
  generalize c.flags.null = n, c.flags.int = i, c.flags.real = x, c.flags.str = s, c.flags.blob = b
  revert n i x s b
  decide

namespace CompareOptions

/-- Whether an operand is compared as a number. -/
def asNumber (o : CompareOptions) (c : Cell) : Bool :=
  if o.isNumeric && c.flags.onlyText then c.readReal.whole
  else if o.isText && c.flags.onlyNumber then false
  else c.flags.numeric

/-- There is a number and a string, which has to be taken for a number, too. -/
def refuses (o : CompareOptions) (c d : Cell) : Bool :=
  !c.flags.null && !d.flags.null && o.isNumeric && c.flags.numeric != d.flags.numeric

/-- The relation that the tracked rule decides, with the operand of the left side last. -/
def decided (o : CompareOptions) (rel : Relation) (c d : Cell) : Relation :=
  if c.flags.null || d.flags.null then if o.nullEq && rel == .eq then .ne else rel
  else if o.asNumber d && !o.asNumber c then rel.converse
  else rel

theorem flags_coerce (o : CompareOptions) (n : Nat) (c : Cell) :
    (Direct.coerce o n c).flags.null = c.flags.null ∧ (Direct.coerce o n c).flags.numeric = o.asNumber c := by
  rw [Direct.coerce, asNumber]
  split
  · rename_i htext
    rw [Cell.applyNumericAffinity_eq]
    split
    · rename_i hwhole
      rw [hwhole]
      split
      · exact ⟨rfl, rfl⟩
      · exact ⟨rfl, Bool.or_true _⟩
    · rename_i hwhole
      rw [Bool.and_eq_true, Flags.onlyText, Bool.and_eq_true, Bool.and_eq_true, Bool.not_eq_true',
        Bool.not_eq_true'] at htext
      rw [Flags.numeric, htext.2.1.2, htext.2.2, Bool.eq_false_of_not_eq_true hwhole]
      exact ⟨rfl, rfl⟩
  · split
    · obtain ⟨hnull, -, hnumeric, -⟩ := c.flags_stringify n
      exact ⟨hnull, hnumeric⟩
    · exact ⟨rfl, rfl⟩

theorem isText_eq_false {o : CompareOptions} (ho : o.isNumeric = true) : o.isText = false := by
  simp only [isNumeric, isText, decide_eq_true_eq, decide_eq_false_iff_not] at ho ⊢
  omega

theorem overwrites_coerce {o : CompareOptions} (ho : o.isNumeric = true) (n : Nat) (c : Cell) :
    (Direct.coerce o n c).overwrites c = false := by
  rw [Direct.coerce, isText_eq_false ho]
  split
  · exact c.overwrites_applyNumericAffinity
  · exact Cell.overwrites_of_string rfl rfl

theorem zero_coerce {o : CompareOptions} {c : Cell} (h : (o.isText && c.flags.onlyNumber) = false) (n : Nat) :
    (Direct.coerce o n c).flags.zero = c.flags.zero := by
  rw [Direct.coerce, h]
  split
  · rw [Cell.applyNumericAffinity_eq]
    split
    · split <;> rfl
    · rfl
  · rfl

theorem coerce_coerce (o : CompareOptions) (m n : Nat) (c : Cell) :
    Direct.coerce o m (Direct.coerce o n c) = Direct.coerce o n c := by
  by_cases hnumeric : (o.isNumeric && c.flags.onlyText) = true
  · rw [show Direct.coerce o n c = c.applyNumericAffinity false from if_pos hnumeric, Direct.coerce,
      isText_eq_false (Bool.and_eq_true_iff.mp hnumeric).1, c.applyNumericAffinity_idem]
    split <;> rfl
  · by_cases htext : (o.isText && c.flags.onlyNumber) = true
    · have hnot : o.isNumeric = false := by
        cases ho : o.isNumeric with
        | false => rfl
        | true =>
          rw [isText_eq_false ho] at htext
          cases htext
      rw [show Direct.coerce o n c = c.stringify n true from (if_neg hnumeric).trans (if_pos htext), Direct.coerce,
        hnot, Flags.onlyNumber, (c.flags_stringify n).2.1, Bool.not_true, Bool.false_and, Bool.false_and,
        Bool.and_false]
      rfl
    · have hsame (n : Nat) : Direct.coerce o n c = c := (if_neg hnumeric).trans (if_neg htext)
      rw [hsame n, hsame m]

theorem asNumber_of_number {o : CompareOptions} (ho : o.isNumeric = true) {c : Cell} (hstr : c.flags.str = false)
    (hnumeric : c.flags.numeric = true) : o.asNumber c = true := by
  rw [asNumber, Flags.onlyText, hstr, isText_eq_false ho, Bool.false_and, Bool.false_and, Bool.and_false,
    Bool.false_and]
  exact hnumeric

theorem coerce_of_isNumeric {o : CompareOptions} (ho : o.isNumeric = true) {c : Cell} (hc : c.flags.str = false)
    (n : Nat) : Direct.coerce o n c = c := by
  rw [Direct.coerce, Flags.onlyText, hc, isText_eq_false ho, Bool.false_and, Bool.false_and, Bool.and_false, Bool.false_and]
  rfl

end CompareOptions

namespace Bank

variable {P : Fact → Cell → Prop} {b b' : Bank} {k : Instruction} {rel : Relation}

theorem Obeys.operands_run (hb : b.Obeys Fact.True) (h1 : 0 ≤ k.p1 ∧ k.p1.toNat < b.reach)
    (h3 : 0 ≤ k.p3 ∧ k.p3.toNat < b.reach) :
    ∃ t l, (b.knowing t l).Obeys Fact.True ∧ ∀ rest : Nat → Flags → Nat → Flags → BankM Flow,
      (do
        let r1 ← register k.p1
        let f1 ← flags r1
        let r3 ← register k.p3
        let f3 ← flags r3
        rest r1 f1 r3 f3) b =
      rest k.p1.toNat (b.cellAt k.p1.toNat).flags k.p3.toNat (b.cellAt k.p3.toNat).flags (b.knowing t l) := by
  obtain ⟨t₁, l₁, hlook₁, hb₁⟩ := hb.flags_run Fact.law_true h1.2
  obtain ⟨t₂, l₂, hlook₂, hb₂⟩ := hb₁.flags_run Fact.law_true h3.2
  rw [knowing_knowing] at hlook₂ hb₂
  refine ⟨t₂, l₂, hb₂, fun rest => ?_⟩
  rw [bind_of_ok (register_run h1.1 (by omega)), bind_of_ok hlook₁,
    bind_of_ok (register_run (b := b.knowing t₁ l₁) h3.1 (by show k.p3 < b.reach; omega)), bind_of_ok hlook₂]
  rfl

/-- A comparison of two registers, with options that go together. -/
structure Compares (b : Bank) (rel : Relation) (k : Instruction) : Prop where
  left : 0 ≤ k.p1 ∧ k.p1.toNat < b.reach
  right : 0 ≤ k.p3 ∧ k.p3.toNat < b.reach
  operands : (b.cellAt k.p1.toNat).Operand ∧ (b.cellAt k.p3.toNat).Operand
  out : (CompareOptions.ofBits k.p5).store = true →
    0 ≤ k.p2 ∧ k.p2.toNat < b.reach ∧ k.p2 ≠ k.p1 ∧ k.p2 ≠ k.p3
  nulls : (CompareOptions.ofBits k.p5).nullEq = true →
    (rel = .eq ∨ rel = .ne) ∧ (CompareOptions.ofBits k.p5).jumpIfNull = false ∧
      (b.cellAt k.p1.toNat).flags.cleared = false
  collates : k.p4.mayCollate = true

/-- The registers that the tracked rule may leave other than the direct one does, where a register is compared
with itself: the register, if it counts zeros, and the others that share the buffer of a number to be written
as text. -/
def Spoils (b : Bank) (k : Instruction) (r : Nat) : Prop :=
  k.p3 = k.p1 ∧ (r = k.p1.toNat ∧ (b.cellAt r).flags.zero = true ∨
    ((CompareOptions.ofBits k.p5).isText && (b.cellAt k.p1.toNat).flags.onlyNumber) = true ∧
      r ≠ k.p1.toNat ∧ ¬ (b.cellAt k.p1.toNat).Apart (b.cellAt r))

namespace Compares

theorem prelude (h : b.Compares rel k) (hb : b.Obeys Fact.True) :
    ∃ t l, (b.knowing t l).Obeys Fact.True ∧ ∀ rest : Nat → Flags → Nat → Flags → BankM Flow,
      (do
        let r1 ← register k.p1
        let f1 ← flags r1
        let r3 ← register k.p3
        let f3 ← flags r3
        rest r1 f1 r3 f3) b =
      rest k.p1.toNat (b.cellAt k.p1.toNat).flags k.p3.toNat (b.cellAt k.p3.toNat).flags (b.knowing t l) :=
  hb.operands_run h.left h.right

theorem direct_prelude (h : b.Compares rel k) (b' : Bank) (rest : Nat → Nat → Cell → Cell → BankM Flow) :
    (do
      let r1 ← slot k.p1
      let r3 ← slot k.p3
      let c1 ← cell r1
      let c3 ← cell r3
      rest r1 r3 c1 c3) b' =
    rest k.p1.toNat k.p3.toNat (b'.cellAt k.p1.toNat) (b'.cellAt k.p3.toNat) b' := by
  rw [bind_of_ok (slot_run h.left.1), bind_of_ok (slot_run h.right.1), bind_of_ok (cell_run b' _),
    bind_of_ok (cell_run b' _)]

theorem paired (hb : b.Obeys P) (hn : b.Named) : b.Paired P b := ⟨hb, _, hn.renames⟩

theorem store_apart (h : b.Compares rel k) (hs : (CompareOptions.ofBits k.p5).store = true) :
    k.p2.toNat ≠ k.p1.toNat ∧ k.p2.toNat ≠ k.p3.toNat := by
  obtain ⟨h2, -, hne1, hne3⟩ := h.out hs
  have := h.left.1
  have := h.right.1
  omega

theorem finish (h : b.Compares rel k) {S : Nat → Prop} {b₁ b₁' : Bank} (halike : b₁.Alike S b₁')
    (hreach : b₁.reach = b.reach) (holds : Bool) {p : Bool} {f g : Flags}
    (hsame : p = false → ¬ S k.p1.toNat ∧ ¬ S k.p3.toNat ∧
      (b₁.cellAt k.p1.toNat).flags = f ∧ (b₁.cellAt k.p3.toNat).flags = g) :
    ∃ flow b₂ b₂', (do
        let flow ← Tracked.decide (.ofBits k.p5) k holds
        if p then
          setFlags k.p1.toNat f
          setFlags k.p3.toNat g
        return flow) b₁ = .ok flow b₂ ∧
      (Direct.decide (.ofBits k.p5) k holds >>= restore k.p1.toNat k.p3.toNat f g) b₁' = .ok flow b₂' ∧
      b₂.Alike S b₂' ∧ b₂.reach = b.reach ∧ (b₂.cellAt k.p3.toNat).flags = g ∧ (b₂'.cellAt k.p3.toNat).flags = g := by
  obtain ⟨flow, b₂, b₂', hdecide, hdecide', h₂, hreach₂, hcells⟩ := halike.decide_run
    (fun hs => ⟨(h.out hs).1, hreach.symm ▸ (h.out hs).2.1⟩) holds
  rw [hreach] at hreach₂
  have h1 := hcells k.p1.toNat fun hs => (h.store_apart hs).1
  have h3 := hcells k.p3.toNat fun hs => (h.store_apart hs).2
  obtain ⟨b₃, b₃', hrestore, hrestore', h₃, hreach₃, hflags⟩ := h₂.restore_run (hreach₂.symm ▸ h.left.2)
    (hreach₂.symm ▸ h.right.2) (fun hc => by rw [h1, h3]; exact hsame hc) flow
  exact ⟨flow, b₃, b₃', (bind_of_ok hdecide).trans hrestore, (bind_of_ok hdecide').trans hrestore', h₃,
    hreach₃.trans hreach₂, hflags⟩

theorem finish_unchanged (h : b.Compares rel k) {b₁ b₁' : Bank} (halike : b₁.Alike (fun _ => False) b₁')
    (hreach : b₁.reach = b.reach) (holds : Bool) :
    ∃ flow b₂ b₂', Tracked.decide (.ofBits k.p5) k holds b₁ = .ok flow b₂ ∧
      (Direct.decide (.ofBits k.p5) k holds >>= restore k.p1.toNat k.p3.toNat (b₁.cellAt k.p1.toNat).flags
        (b₁.cellAt k.p3.toNat).flags) b₁' = .ok flow b₂' ∧ b₂.Alike (fun _ => False) b₂' := by
  obtain ⟨flow, b₂, b₂', hdecide, hdecide', h₂, -⟩ := h.finish halike hreach holds (p := false)
    fun _ => ⟨id, id, rfl, rfl⟩
  exact ⟨flow, b₂, b₂', by simpa using hdecide, hdecide', h₂⟩

theorem comparison_null (h : b.Compares rel k) (hb : b.Obeys Fact.True) (hn : b.Named)
    (hnull : ((b.cellAt k.p1.toNat).flags.null || (b.cellAt k.p3.toNat).flags.null) = true) :
    ∃ flow b₁ b₂, Tracked.comparison rel k b = .ok flow b₁ ∧
      Direct.comparison ((CompareOptions.ofBits k.p5).decided rel (b.cellAt k.p1.toNat) (b.cellAt k.p3.toNat)) k b =
        .ok flow b₂ ∧ b₁.Alike (fun _ => False) b₂ := by
  obtain ⟨t, l, hb', hrun⟩ := h.prelude hb
  have halike : (b.knowing t l).Alike (fun _ => False) b := ((paired hb hn).of_knowing hb').alike _
  have hdirect (rel : Relation) : Direct.comparison rel k b = _ := h.direct_prelude b _
  rw [CompareOptions.decided, if_pos hnull, hdirect, show Tracked.comparison rel k b = _ from hrun _]
  dsimp only
  rw [if_pos hnull, if_pos hnull]
  cases heq : (CompareOptions.ofBits k.p5).nullEq with
  | true =>
    obtain ⟨hrel, hjump, hcleared⟩ := h.nulls heq
    have hne : (if (true && rel == .eq) = true then Relation.ne else rel) = .ne := by
      obtain rfl | rfl := hrel <;> rfl
    have hchecked : (rel == .eq || rel == .ne) = true := by obtain rfl | rfl := hrel <;> rfl
    have hholds (p : Bool) : Relation.ne.holds (if p = true then .eq else .gt) = !p := by cases p <;> rfl
    obtain ⟨flow, b₁, b₂, hdecide, hdecide', h₁⟩ := h.finish_unchanged halike rfl
      !((b.cellAt k.p1.toNat).flags.null && (b.cellAt k.p3.toNat).flags.null &&
        !(b.cellAt k.p3.toNat).flags.cleared)
    refine ⟨flow, b₁, b₂, ?_, ?_, h₁⟩
    · rw [if_pos rfl, hchecked, hcleared, hjump]
      exact hdecide
    · rw [if_pos rfl, hne, hholds]
      exact hdecide'
  | false =>
    rw [if_neg Bool.false_ne_true, if_neg Bool.false_ne_true]
    cases hs : (CompareOptions.ofBits k.p5).store with
    | true =>
      obtain ⟨h0, hr, -⟩ := h.out hs
      have hregister : register k.p2 (b.knowing t l) = .ok k.p2.toNat (b.knowing t l) :=
        register_run h0 (by show k.p2 < b.reach; omega)
      obtain ⟨b₁, hretype, h₁, -⟩ := halike.retype_run hr .onlyNull
      refine ⟨.next, b₁, _, ?_, ?_, h₁⟩
      · rw [if_pos rfl, bind_of_ok hregister, bind_of_ok hretype]
        rfl
      · rw [if_pos rfl, bind_of_ok (slot_run h0), bind_of_ok (modifyCell_run _ _ _)]
        rfl
    | false => exact ⟨_, _, _, rfl, rfl, halike⟩

theorem direct_values (h : b.Compares rel k)
    (hnull : ((b.cellAt k.p1.toNat).flags.null || (b.cellAt k.p3.toNat).flags.null) = false) (rel' : Relation) :
    Direct.comparison rel' k b = (do
      modifyCellWith k.p1.toNat (Direct.coerce (.ofBits k.p5))
      modifyCellWith k.p3.toNat (Direct.coerce (.ofBits k.p5))
      let back1 ← Direct.widen k.p1.toNat (b.cellAt k.p1.toNat).flags
      let back3 ← Direct.widen k.p3.toNat (b.cellAt k.p3.toNat).flags
      let c3 ← cell k.p3.toNat
      let c1 ← cell k.p1.toNat
      let flow ← Direct.decide (.ofBits k.p5) k (rel'.holds (Cell.compare k.p4.collation? c3 c1))
      restore k.p1.toNat k.p3.toNat back1 back3 flow) b := by
  have hdirect (rel : Relation) : Direct.comparison rel k b = _ := h.direct_prelude b _
  rw [hdirect]
  dsimp only
  rw [if_neg (by rw [hnull]; exact Bool.false_ne_true)]
  rfl

theorem tracked_numbers (h : b.Compares rel k) (hb : b.Obeys Fact.True)
    (hnull : ((b.cellAt k.p1.toNat).flags.null || (b.cellAt k.p3.toNat).flags.null) = false)
    (hnumbers : ((CompareOptions.ofBits k.p5).isNumeric &&
      ((b.cellAt k.p1.toNat).flags.numeric || (b.cellAt k.p3.toNat).flags.numeric)) = true) :
    ∃ t l, (b.knowing t l).Obeys Fact.True ∧ Tracked.comparison rel k b = (
      if (b.cellAt k.p1.toNat).flags.int && (b.cellAt k.p3.toNat).flags.int then do
        let n3 ← int k.p3.toNat
        let n1 ← int k.p1.toNat
        Tracked.decide (.ofBits k.p5) k (rel.holds (Ord.compare n3 n1))
      else do
        let n1 ← Tracked.asReal k.p1.toNat (b.cellAt k.p1.toNat).flags
        let n3 ← Tracked.asReal k.p3.toNat (b.cellAt k.p3.toNat).flags
        Tracked.decide (.ofBits k.p5) k (rel.holdsNumber n3 n1)) (b.knowing t l) := by
  obtain ⟨t, l, hb', hrun⟩ := h.prelude hb
  refine ⟨t, l, hb', ?_⟩
  rw [show Tracked.comparison rel k b = _ from hrun _]
  dsimp only
  rw [if_neg (by rw [hnull]; exact Bool.false_ne_true), if_pos hnumbers]

theorem tracked_others (h : b.Compares rel k) (hb : b.Obeys Fact.True)
    (hnull : ((b.cellAt k.p1.toNat).flags.null || (b.cellAt k.p3.toNat).flags.null) = false)
    (hnumbers : ((CompareOptions.ofBits k.p5).isNumeric &&
      ((b.cellAt k.p1.toNat).flags.numeric || (b.cellAt k.p3.toNat).flags.numeric)) = false) :
    ∃ t l, (b.knowing t l).Obeys Fact.True ∧ Tracked.comparison rel k b = (do
      let g1 ← Tracked.coerce (.ofBits k.p5) k.p1.toNat (b.cellAt k.p1.toNat).flags
      let g3 ← Tracked.coerce (.ofBits k.p5) k.p3.toNat (b.cellAt k.p3.toNat).flags
      let back1 ← Tracked.widen k.p1.toNat g1.1 (b.cellAt k.p1.toNat).flags
      let back3 ← Tracked.widen k.p3.toNat g3.1 (b.cellAt k.p3.toNat).flags
      let order ← Bank.compare k.p3.toNat k.p1.toNat k.p4.collation?
      let flow ← Tracked.decide (.ofBits k.p5) k (rel.holds order)
      if g1.2 || g3.2 || back1.2 || back3.2 then
        setFlags k.p1.toNat back1.1
        setFlags k.p3.toNat back3.1
      return flow) (b.knowing t l) := by
  obtain ⟨t, l, hb', hrun⟩ := h.prelude hb
  refine ⟨t, l, hb', ?_⟩
  rw [show Tracked.comparison rel k b = _ from hrun _]
  dsimp only
  rw [if_neg (by rw [hnull]; exact Bool.false_ne_true), if_neg (by rw [hnumbers]; exact Bool.false_ne_true),
    h.collates]
  rfl

end Compares

theorem direct_widen_idle {r : Nat} (before : Flags) (h : (b.cellAt r).flags.zero = false) :
    Direct.widen r before b = .ok before b := by
  rw [Direct.widen, bind_of_ok (cell_run b r), h]
  rfl

theorem Paired.compare_eq (h : b.Paired P b') (coll : Option Collation) (i j : Nat) :
    Cell.compare coll (b'.cellAt i) (b'.cellAt j) = Cell.compare coll (b.cellAt i) (b.cellAt j) := by
  obtain ⟨ρ, hρ⟩ := h.renames
  exact (hρ.cells i).compare (hρ.cells j) coll

theorem Touched.asNumber_eq {o : CompareOptions} {n i j : Nat} {b₁ : Bank}
    (h : b.Touched i (Direct.coerce o n (b.cellAt i)) b₁) (hj : j ≠ i) :
    o.asNumber (b₁.cellAt j) = o.asNumber (b.cellAt j) := by
  cases ho : o.isNumeric with
  | true => rw [h.others j hj, CompareOptions.overwrites_coerce ho, if_neg Bool.false_ne_true]
  | false =>
    rw [CompareOptions.asNumber, CompareOptions.asNumber, ho, h.flags hj, Bool.false_and, if_neg Bool.false_ne_true,
      if_neg Bool.false_ne_true]

theorem tracked_widen_idle {r : Nat} {f : Flags} (before : Flags) (h : f.zero = false) :
    Tracked.widen r f before b = .ok (before, false) b := by
  rw [Tracked.widen, h]
  rfl

/-- Buffers that a register has not shared are not shared once it has been written as text. -/
theorem Touched.apart {i j : Nat} {b₁ : Bank} (hn : b.Named)
    (h : b.Touched i ((b.cellAt i).stringify b.fresh true) b₁) (hj : j ≠ i)
    (hapart : (b.cellAt i).Apart (b.cellAt j)) : (b₁.cellAt i).Apart (b₁.cellAt j) := by
  intro d hd
  have hname : ∃ e, (b.cellAt j).data = some e ∧ e.name = d.name := by
    rw [h.others j hj] at hd
    split at hd
    · exact Cell.data_of_seeing hd
    · exact ⟨d, hd, rfl⟩
  obtain ⟨e, he, hname⟩ := hname
  rw [h.cell, ← hname]
  obtain hown | hown := (b.cellAt i).own_stringify b.fresh true
  · rw [hown]
    exact hapart e he
  · rw [hown]
    intro heq
    rw [Option.some.injEq] at heq
    have := (hn j).2 e he
    omega

namespace Paired

theorem written {r : Nat} {b₁ : Bank} (h : b.Paired Fact.True b') (h₁ : b₁.Obeys Fact.True)
    (ht : b.Touched r ((b.cellAt r).stringify b.fresh true) b₁) :
    b₁.Alike (fun j => j = r ∨ ¬ (b.cellAt r).Apart (b.cellAt j)) b' := by
  obtain ⟨ρ, hρ⟩ := h.renames
  refine ⟨h₁.mono Fact.Holds.flags, hρ.size.trans ht.size.symm, fun j => ?_, fun j hj => ?_, fun j hj => ?_⟩
  · rw [(hρ.cells j).payload]
    by_cases hjr : j = r
    · rw [hjr, ht.cell, Cell.payload_stringify]
    · rw [ht.others j hjr]
      split
      · rw [Cell.payload_seeing]
      · rfl
  all_goals
    obtain ⟨hjr, hapart⟩ := not_or.mp hj
    have hsame : b₁.cellAt j = b.cellAt j := by
      rw [ht.others j hjr]
      split
      · exact Cell.seeing_of_overwrites ‹_› (not_not.mp hapart)
      · rfl
    rw [hsame]
  · exact (hρ.cells j).flags
  · exact (hρ.cells j).sameString

theorem coerce_again {r : Nat} (h : b.Paired Fact.True b') (hr : r < b.reach) {o : CompareOptions} {n n' : Nat}
    {c : Cell} (hcell : b.cellAt r = Direct.coerce o n c) (hcell' : b'.cellAt r = Direct.coerce o n' c)
    (hnumber : (o.isText && c.flags.onlyNumber) = false) :
    ∃ b₁ p, Tracked.coerce o r c.flags b = .ok ((b.cellAt r).flags, p) b₁ ∧
      b₁.Paired Fact.True (b'.renewed.put r (Direct.coerce o b'.fresh (b'.cellAt r))) ∧ b₁.reach = b.reach ∧
      ∀ j, b₁.cellAt j = b.cellAt j := by
  have hidle : b.Paired Fact.True (b'.renewed.put r (Direct.coerce o b'.fresh (b'.cellAt r))) :=
    h.idle (by rw [hcell', CompareOptions.coerce_coerce])
  rw [Tracked.coerce]
  by_cases hnumeric : (o.isNumeric && c.flags.onlyText) = true
  · have hsame : (b.cellAt r).applyNumericAffinity false = b.cellAt r := by
      rw [hcell, Direct.coerce, if_pos hnumeric, Cell.applyNumericAffinity_idem]
    obtain ⟨b₁, hrun, h₁, hreach, hcells⟩ := hidle.direct_idle Fact.law_true hr
      (f := fun _ => Cell.applyNumericAffinity false) hsame
    obtain ⟨t, l, hlook, hobeys⟩ := h₁.obeys.flags_run Fact.law_true (hreach.symm ▸ hr)
    rw [if_pos hnumeric, ← hcells r]
    exact ⟨_, true, (bind_of_ok hrun).trans (bind_of_ok hlook), h₁.of_knowing hobeys, hreach, hcells⟩
  · have hsame : b.cellAt r = c := by rw [hcell, Direct.coerce, if_neg hnumeric, hnumber, if_neg Bool.false_ne_true]
    rw [if_neg hnumeric, hnumber, hsame]
    exact ⟨b, false, rfl, hidle, rfl, fun _ => rfl⟩

theorem widen_again {r : Nat} (h : b.Paired Fact.True b') (hr : r < b.reach) (hz : (b.cellAt r).flags.zero = false)
    (f before : Flags) :
    ∃ b₁ w, Tracked.widen r f before b = .ok (back f before, w) b₁ ∧ b₁.Paired Fact.True b' ∧ b₁.reach = b.reach ∧
      ∀ j, b₁.cellAt j = b.cellAt j := by
  rw [Tracked.widen, back]
  cases f.zero with
  | true =>
    obtain ⟨b₁, hrun, h₁, hreach, hcells⟩ := h.direct_idle Fact.law_true hr (f := Cell.expandBlob)
      (by rw [Cell.expandBlob, hz, if_neg Bool.false_ne_true])
    obtain ⟨t, l, hlook, hobeys⟩ := h₁.obeys.flags_run Fact.law_true (hreach.symm ▸ hr)
    exact ⟨_, true, (bind_of_ok hrun).trans (bind_of_ok (discard_of_ok hlook)), h₁.of_knowing hobeys, hreach, hcells⟩
  | false => exact ⟨b, false, rfl, h, rfl, fun _ => rfl⟩

end Paired

theorem asReal_run {r : Nat} (hb : b.Obeys Fact.True) (hr : r < b.reach) (hoperand : (b.cellAt r).Operand)
    (hnumber : (b.cellAt r).flags.numeric = true) :
    ∃ a : Number, Tracked.asReal r (b.cellAt r).flags b = .ok a b ∧ a.Stands (b.cellAt r).rounded ∧
      (b.cellAt r).rounded.isNaN = false := by
  obtain ⟨-, -, -, hreal⟩ := hoperand.number hnumber
  have hword : (Double.ofInt (b.cellAt r).int).isNaN = false :=
    Double.isNaN_of_isFinite (Double.isFinite_ofInt (fitsWord_wordToInt _))
  rw [Tracked.asReal, Cell.rounded, hreal]
  cases hint : (b.cellAt r).flags.int with
  | true => exact ⟨_, bind_of_ok (hb.int_run hr), .inl rfl, hword⟩
  | false =>
    rw [hint] at hreal
    obtain ⟨a, hrun, ha⟩ := hb.real_run hr
    exact ⟨a, hrun, ha, hoperand.ordered hreal⟩

theorem asReal_error {r : Nat} {f : Flags} (hf : f.numeric = false) :
    Tracked.asReal r f b = .error (.assertion "") b := by
  rw [Flags.numeric, Bool.or_eq_false_iff] at hf
  rw [Tracked.asReal, hf.1, hf.2]
  rfl

namespace Compares

theorem comparison_refused (h : b.Compares rel k) (hb : b.Obeys Fact.True)
    (hrefused : (CompareOptions.ofBits k.p5).refuses (b.cellAt k.p1.toNat) (b.cellAt k.p3.toNat) = true) :
    ∃ b₁, Tracked.comparison rel k b = .error (.assertion "") b₁ ∧ ∀ r, b₁.cellAt r = b.cellAt r := by
  simp only [CompareOptions.refuses, Bool.and_eq_true, Bool.not_eq_true', bne_iff_ne] at hrefused
  obtain ⟨⟨⟨hnull1, hnull3⟩, hnumeric⟩, hdiffer⟩ := hrefused
  have hsome : ((b.cellAt k.p1.toNat).flags.numeric || (b.cellAt k.p3.toNat).flags.numeric) = true := by
    revert hdiffer
    cases (b.cellAt k.p1.toNat).flags.numeric <;> cases (b.cellAt k.p3.toNat).flags.numeric <;> decide
  obtain ⟨t, l, hb', hrun⟩ := h.tracked_numbers hb (by rw [hnull1, hnull3]; rfl) (by rw [hnumeric, hsome]; rfl)
  refine ⟨b.knowing t l, ?_, fun r => rfl⟩
  cases h1 : (b.cellAt k.p1.toNat).flags.numeric with
  | false =>
    have hints : ((b.cellAt k.p1.toNat).flags.int && (b.cellAt k.p3.toNat).flags.int) = false := by
      rw [Flags.numeric, Bool.or_eq_false_iff] at h1
      rw [h1.1, Bool.false_and]
    rw [hrun, hints]
    exact bind_of_error (asReal_error h1)
  | true =>
    have h3 : (b.cellAt k.p3.toNat).flags.numeric = false := by
      rw [h1] at hdiffer
      exact Bool.eq_false_of_not_eq_true hdiffer.symm
    have hints : ((b.cellAt k.p1.toNat).flags.int && (b.cellAt k.p3.toNat).flags.int) = false := by
      rw [Flags.numeric, Bool.or_eq_false_iff] at h3
      rw [h3.1, Bool.and_false]
    obtain ⟨a, hread, -⟩ := asReal_run hb' h.left.2 h.operands.1 h1
    rw [hrun, hints]
    exact (bind_of_ok hread).trans (bind_of_error (asReal_error h3))

theorem comparison_numbers (h : b.Compares rel k) (hb : b.Obeys Fact.True) (hn : b.Named)
    (hnumeric : (CompareOptions.ofBits k.p5).isNumeric = true)
    (h1 : (b.cellAt k.p1.toNat).flags.numeric = true) (h3 : (b.cellAt k.p3.toNat).flags.numeric = true)
    :
    ∃ flow b₁ b₂, Tracked.comparison rel k b = .ok flow b₁ ∧ Direct.comparison rel k b = .ok flow b₂ ∧
      b₁.Alike (fun _ => False) b₂ := by
  obtain ⟨hnull1, ⟨hstr1, -⟩, hzero1, -⟩ := h.operands.1.number h1
  obtain ⟨hnull3, ⟨hstr3, -⟩, hzero3, -⟩ := h.operands.2.number h3
  have hnull : ((b.cellAt k.p1.toNat).flags.null || (b.cellAt k.p3.toNat).flags.null) = false := by
    rw [hnull1, hnull3]
    rfl
  obtain ⟨t, l, hb', hrun⟩ := h.tracked_numbers hb hnull (by rw [hnumeric, h1]; rfl)
  -- the direct rule converts nothing
  have h₀ : (b.knowing t l).Paired Fact.True b := (paired hb hn).of_knowing hb'
  have h₁ := h₀.idle (f := Direct.coerce (.ofBits k.p5))
    (CompareOptions.coerce_of_isNumeric hnumeric (show (b.cellAt k.p1.toNat).flags.str = false from hstr1) _)
  have h₂ := h₁.idle (f := Direct.coerce (.ofBits k.p5)) (CompareOptions.coerce_of_isNumeric hnumeric
    (show Flags.str (Cell.toContent (cellAt _ k.p3.toNat)).flags = false by rw [h₁.flags_eq]; exact hstr3) _)
  have hwiden1 := direct_widen_idle (b.cellAt k.p1.toNat).flags ((congrArg Flags.zero (h₂.flags_eq _)).trans hzero1)
  have hwiden3 := direct_widen_idle (b.cellAt k.p3.toNat).flags ((congrArg Flags.zero (h₂.flags_eq _)).trans hzero3)
  obtain ⟨a1, hread1, ha1, hnan1⟩ := asReal_run hb' h.left.2 h.operands.1 h1
  obtain ⟨a3, hread3, ha3, hnan3⟩ := asReal_run hb' h.right.2 h.operands.2 h3
  have horder := (h₂.compare_eq k.p4.collation? k.p3.toNat k.p1.toNat).trans
    (Cell.compare_numbers _ h3 h1 hnull3 hnull1 hnan3 hnan1)
  obtain ⟨flow, b₁, b₂, hdecide, hdecide', halike⟩ := h.finish_unchanged (h₂.alike _) rfl
    (rel.holds (if (b.cellAt k.p3.toNat).flags.int && (b.cellAt k.p1.toNat).flags.int then
      Ord.compare (b.cellAt k.p3.toNat).int (b.cellAt k.p1.toNat).int
      else Ord.compare (b.cellAt k.p3.toNat).rounded.key (b.cellAt k.p1.toNat).rounded.key))
  refine ⟨flow, b₁, b₂, ?_, ?_, halike⟩
  · rw [hrun, Bool.and_comm, ← hdecide]
    cases hints : ((b.cellAt k.p3.toNat).flags.int && (b.cellAt k.p1.toNat).flags.int) with
    | true => exact (bind_of_ok (hb'.int_run h.right.2)).trans (bind_of_ok (hb'.int_run h.left.2))
    | false =>
      refine (bind_of_ok hread1).trans ((bind_of_ok hread3).trans ?_)
      rw [Relation.holdsNumber, ha3.cmp? ha1 hnan3 hnan1]
      rfl
  · rw [h.direct_values hnull, bind_of_ok (modifyCellWith_run _ _ _), bind_of_ok (modifyCellWith_run _ _ _),
      bind_of_ok hwiden1, bind_of_ok hwiden3, bind_of_ok (cell_run _ _), bind_of_ok (cell_run _ _), horder]
    exact hdecide'

theorem comparison_apart (h : b.Compares rel k) (hb : b.Obeys Fact.True) (hn : b.Named)
    (hnull : ((b.cellAt k.p1.toNat).flags.null || (b.cellAt k.p3.toNat).flags.null) = false)
    (hnumbers : ((CompareOptions.ofBits k.p5).isNumeric &&
      ((b.cellAt k.p1.toNat).flags.numeric || (b.cellAt k.p3.toNat).flags.numeric)) = false)
    (hne : k.p1.toNat ≠ k.p3.toNat) :
    ∃ flow b₁ b₂, Tracked.comparison rel k b = .ok flow b₁ ∧
      Direct.comparison ((CompareOptions.ofBits k.p5).decided rel (b.cellAt k.p1.toNat) (b.cellAt k.p3.toNat)) k b =
        .ok flow b₂ ∧ b₁.Alike (fun _ => False) b₂ := by
  obtain ⟨hnull1, hnull3⟩ := Bool.or_eq_false_iff.mp hnull
  obtain ⟨t, l, hb', hrun⟩ := h.tracked_others hb hnull hnumbers
  have h₀ : (b.knowing t l).Paired Fact.True b := (paired hb hn).of_knowing hb'
  obtain ⟨b₁, p1, hrun₁, h₁, ht₁, hsame₁⟩ := h₀.coerce h.left.2 (.ofBits k.p5)
  have hr3 : k.p3.toNat < b₁.reach := ht₁.reach.symm ▸ h.right.2
  obtain ⟨b₂, p3, hrun₂, h₂, ht₂, hsame₂⟩ := h₁.coerce hr3 (.ofBits k.p5)
  rw [ht₁.flags hne.symm] at hrun₂
  have hr1 : k.p1.toNat < b₂.reach := by
    rw [ht₂.reach, ht₁.reach]
    exact h.left.2
  obtain ⟨b₃, b₃', w1, hrun₃, hrun₃', h₃, ht₃, hsame₃⟩ := h₂.widen hr1 (b.cellAt k.p1.toNat).flags
  rw [ht₂.flags hne] at hrun₃ hrun₃'
  have hr3 : k.p3.toNat < b₃.reach := by
    rw [ht₃.reach, ht₂.reach]
    exact hr3
  obtain ⟨b₄, b₄', w3, hrun₄, hrun₄', h₄, ht₄, hsame₄⟩ := h₃.widen hr3 (b.cellAt k.p3.toNat).flags
  rw [ht₃.flags hne.symm] at hrun₄ hrun₄'
  -- the marks of the operands once they have been converted
  obtain ⟨hc1, hd1⟩ := CompareOptions.flags_coerce (.ofBits k.p5) b.fresh (b.cellAt k.p1.toNat)
  obtain ⟨hc3, hd3⟩ := CompareOptions.flags_coerce (.ofBits k.p5) b₁.fresh (b₁.cellAt k.p3.toNat)
  obtain ⟨he1, hf1⟩ := (b₂.cellAt k.p1.toNat).flags_expandBlob b₂.fresh
  obtain ⟨he3, hf3⟩ := (b₃.cellAt k.p3.toNat).flags_expandBlob b₃.fresh
  have hkind1 : (b₄.cellAt k.p1.toNat).flags.null = false ∧
      (b₄.cellAt k.p1.toNat).flags.numeric = (CompareOptions.ofBits k.p5).asNumber (b.cellAt k.p1.toNat) := by
    rw [ht₄.flags hne, ht₃.cell, he1, hf1, ht₂.flags hne, ht₁.cell]
    exact ⟨hc1.trans hnull1, hd1⟩
  have hkind3 : (b₄.cellAt k.p3.toNat).flags.null = false ∧
      (b₄.cellAt k.p3.toNat).flags.numeric = (CompareOptions.ofBits k.p5).asNumber (b.cellAt k.p3.toNat) := by
    rw [ht₄.cell, he3, hf3, ht₃.flags hne.symm, ht₂.cell, hc3, hd3, ht₁.flags hne.symm, ht₁.asNumber_eq hne.symm]
    exact ⟨hnull3, rfl⟩
  have hreach : b₄.reach = b.reach := by
    rw [ht₄.reach, ht₃.reach, ht₂.reach, ht₁.reach]
    rfl
  obtain ⟨t', l', hrun₅, hobeys₅⟩ := compare_run h₄.obeys (hreach.symm ▸ h.right.2) (hreach.symm ▸ h.left.2) hkind3.1
    hkind1.1 k.p4.collation?
  have hsame : (p1 || p3 || w1 || w3) = false →
      (b₄.cellAt k.p1.toNat).flags = Paired.back (b₁.cellAt k.p1.toNat).flags (b.cellAt k.p1.toNat).flags ∧
      (b₄.cellAt k.p3.toNat).flags = Paired.back (b₂.cellAt k.p3.toNat).flags (b.cellAt k.p3.toNat).flags := by
    intro hp
    simp only [Bool.or_eq_false_iff] at hp
    obtain ⟨⟨⟨rfl, rfl⟩, rfl⟩, rfl⟩ := hp
    obtain ⟨hz1, hcells₃⟩ := hsame₃ rfl
    obtain ⟨hz3, hcells₄⟩ := hsame₄ rfl
    rw [hcells₃] at hz3
    rw [hsame₂ rfl] at hz1
    rw [Paired.back, Paired.back, hz1, hz3, hcells₄, hcells₃, hsame₂ rfl, hsame₁ rfl, hcells₄, hcells₃, hsame₂ rfl,
      hsame₁ rfl]
    exact ⟨rfl, rfl⟩
  have horder := h₄.compare_eq k.p4.collation? k.p3.toNat k.p1.toNat
  obtain ⟨flow, b₅, b₅', hrun₆, hrun₆', h₅, -⟩ := h.finish ((h₄.of_knowing hobeys₅).alike fun _ => False) hreach
    (rel.holds (Cell.judged k.p4.collation? (b₄.cellAt k.p3.toNat) (b₄.cellAt k.p1.toNat)))
    fun hp => ⟨id, id, hsame hp⟩
  refine ⟨flow, b₅, b₅', ?_, ?_, h₅⟩
  · rw [hrun]
    exact (bind_of_ok hrun₁).trans ((bind_of_ok hrun₂).trans ((bind_of_ok hrun₃).trans ((bind_of_ok hrun₄).trans
      ((bind_of_ok hrun₅).trans hrun₆))))
  · rw [h.direct_values hnull, bind_of_ok (modifyCellWith_run _ _ _), bind_of_ok (modifyCellWith_run _ _ _),
      bind_of_ok hrun₃', bind_of_ok hrun₄', bind_of_ok (cell_run _ _), bind_of_ok (cell_run _ _), horder, ← hrun₆',
      rel.holds_judged _ hkind3.1 hkind1.1, hkind1.2, hkind3.2, CompareOptions.decided, hnull]
    rfl

theorem comparison_same (h : b.Compares rel k) (hb : b.Obeys Fact.True) (hn : b.Named) (heq : k.p3 = k.p1)
    (hnull : (b.cellAt k.p1.toNat).flags.null = false)
    (hnumbers : ((CompareOptions.ofBits k.p5).isNumeric && (b.cellAt k.p1.toNat).flags.numeric) = false)
    (htext : ((CompareOptions.ofBits k.p5).isText && (b.cellAt k.p1.toNat).flags.onlyNumber) = false) :
    ∃ flow b₁ b₂, Tracked.comparison rel k b = .ok flow b₁ ∧
      Direct.comparison rel k b = .ok flow b₂ ∧
      (∀ r, ¬ (r = k.p1.toNat ∧ (b.cellAt r).flags.zero = true) → (b₂.cellAt r).view = (b₁.cellAt r).view) ∧
      ((b.cellAt k.p1.toNat).flags.zero = true →
        (b₁.cellAt k.p1.toNat).flags.zero = false ∧ (b₂.cellAt k.p1.toNat).flags.zero = true) := by
  obtain ⟨t, l, hb', hrun⟩ := h.tracked_others hb (by rw [heq, hnull]; rfl) (by rw [heq, Bool.or_self]; exact hnumbers)
  have hdirect := h.direct_values (by rw [heq, hnull]; rfl) rel
  have hfinish {b₁ b₁' : Bank} (halike : b₁.Alike (fun _ => False) b₁') (hreach : b₁.reach = b.reach) (holds p : Bool)
    (f g : Flags) := h.finish halike hreach holds (p := p) (f := f) (g := g)
  rw [heq] at hrun hdirect hfinish
  have h₀ : (b.knowing t l).Paired Fact.True b := (paired hb hn).of_knowing hb'
  obtain ⟨b₁, p1, hrun₁, h₁, ht₁, hsame₁⟩ := h₀.coerce h.left.2 (.ofBits k.p5)
  have hcell₁ : (b.renewed.put k.p1.toNat (Direct.coerce (.ofBits k.p5) b.fresh (b.cellAt k.p1.toNat))).cellAt
      k.p1.toNat = Direct.coerce (.ofBits k.p5) b.fresh (b.cellAt k.p1.toNat) := by
    rw [cellAt_put (b := b.renewed) (hb.lt_size h.left.2), if_pos rfl]
  obtain ⟨b₂, p3, hrun₂, h₂, hreach₂, hcells₂⟩ := h₁.coerce_again (ht₁.reach.symm ▸ h.left.2) ht₁.cell hcell₁ htext
  rw [ht₁.reach] at hreach₂
  obtain ⟨b₃, b₃', w1, hrun₃, hrun₃', h₃, ht₃, hsame₃⟩ := h₂.widen (hreach₂.symm ▸ h.left.2)
    (b.cellAt k.p1.toNat).flags
  have hreach₃ : b₃.reach = b.reach := ht₃.reach.trans hreach₂
  rw [hcells₂] at hrun₃ hrun₃'
  have hzero₃ : (b₃.cellAt k.p1.toNat).flags.zero = false := by
    rw [ht₃.cell]
    exact Cell.zero_expandBlob _ _
  obtain ⟨b₄, w3, hrun₄, h₄, hreach₄, hcells₄⟩ := h₃.widen_again (hreach₃.symm ▸ h.left.2) hzero₃
    (b₁.cellAt k.p1.toNat).flags (b.cellAt k.p1.toNat).flags
  rw [hreach₃] at hreach₄
  have hrun₄' := direct_widen_idle (b.cellAt k.p1.toNat).flags
    ((congrArg Flags.zero (h₃.flags_eq k.p1.toNat)).trans hzero₃)
  have hnull₄ : (b₄.cellAt k.p1.toNat).flags.null = false := by
    rw [hcells₄, ht₃.cell, (Cell.flags_expandBlob _ _).1, hcells₂, ht₁.cell, (CompareOptions.flags_coerce _ _ _).1]
    exact hnull
  obtain ⟨t', l', hrun₅, hobeys₅⟩ := compare_run h₄.obeys (hreach₄.symm ▸ h.left.2) (hreach₄.symm ▸ h.left.2) hnull₄
    hnull₄ k.p4.collation?
  rw [Cell.judged, Bool.and_not_self, if_neg Bool.false_ne_true] at hrun₅
  have hsame : (p1 || p3 || w1 || w3) = false → (b₄.cellAt k.p1.toNat).flags =
      Paired.back (b₁.cellAt k.p1.toNat).flags (b.cellAt k.p1.toNat).flags := by
    intro hp
    simp only [Bool.or_eq_false_iff] at hp
    obtain ⟨⟨⟨rfl, -⟩, rfl⟩, -⟩ := hp
    obtain ⟨hz, hcells₃⟩ := hsame₃ rfl
    rw [hcells₂] at hz
    rw [Paired.back, hz, hcells₄, hcells₃, hcells₂, hsame₁ rfl]
    rfl
  obtain ⟨flow, b₅, b₅', hrun₆, hrun₆', h₅, hreach₅, hflags₅, -⟩ := hfinish
    ((h₄.of_knowing hobeys₅).alike fun _ => False) hreach₄
    (rel.holds (Cell.compare k.p4.collation? (b₄.cellAt k.p1.toNat) (b₄.cellAt k.p1.toNat))) (p1 || p3 || w1 || w3)
    (Paired.back (b₁.cellAt k.p1.toNat).flags (b.cellAt k.p1.toNat).flags)
    (Paired.back (b₁.cellAt k.p1.toNat).flags (b.cellAt k.p1.toNat).flags) fun hp => ⟨id, id, hsame hp, hsame hp⟩
  have htracked : Tracked.comparison rel k b = .ok flow b₅ := by
    rw [hrun]
    exact (bind_of_ok hrun₁).trans ((bind_of_ok hrun₂).trans ((bind_of_ok hrun₃).trans ((bind_of_ok hrun₄).trans
      ((bind_of_ok hrun₅).trans hrun₆))))
  rw [bind_of_ok (modifyCellWith_run _ _ _), bind_of_ok (modifyCellWith_run _ _ _), bind_of_ok hrun₃',
    bind_of_ok hrun₄', bind_of_ok (cell_run _ _), bind_of_ok (cell_run _ _), h₄.compare_eq] at hdirect
  have hzero : (b₁.cellAt k.p1.toNat).flags.zero = (b.cellAt k.p1.toNat).flags.zero := by
    rw [ht₁.cell]
    exact CompareOptions.zero_coerce htext _
  rw [Paired.back, hzero] at hdirect hrun₆' hflags₅
  cases hz : (b.cellAt k.p1.toNat).flags.zero with
  | false =>
    rw [hz, if_neg Bool.false_ne_true] at hdirect hrun₆'
    exact ⟨flow, b₅, b₅', htracked, hdirect.trans hrun₆', fun r _ => h₅.view_eq id, fun hf => by cases hf⟩
  | true =>
    -- the direct rule ends with the marks from before, the tracked rule with those that count no zeros
    have hlt : k.p1.toNat < b₅'.cells.size := by
      rw [h₅.size]
      exact h₅.obeys.lt_size (hreach₅.symm ▸ h.left.2)
    rw [hz, if_pos rfl] at hdirect hrun₆' hflags₅
    refine ⟨flow, b₅, _, htracked, hdirect.trans (restore_again hlt hrun₆' _), fun r hr => ?_, fun _ => ⟨?_, ?_⟩⟩
    · have hne : k.p1.toNat ≠ r := fun heq => hr ⟨heq.symm, heq ▸ hz⟩
      rw [cellAt_withCell hlt, if_neg hne]
      exact h₅.view_eq id
    · rw [hflags₅]
    · rw [cellAt_withCell_self hlt]
      exact hz

/-- A number that is compared with itself as text. The tracked rule writes it twice. -/
theorem comparison_written (h : b.Compares rel k) (hb : b.Obeys Fact.True) (hn : b.Named) (heq : k.p3 = k.p1)
    (htext : ((CompareOptions.ofBits k.p5).isText && (b.cellAt k.p1.toNat).flags.onlyNumber) = true) :
    ∃ flow b₁ b₂, Tracked.comparison rel k b = .ok flow b₁ ∧ Direct.comparison rel k b = .ok flow b₂ ∧
      ∀ r, ¬ (r ≠ k.p1.toNat ∧ ¬ (b.cellAt k.p1.toNat).Apart (b.cellAt r)) →
        (b₂.cellAt r).view = (b₁.cellAt r).view := by
  obtain ⟨hisText, honly⟩ := Bool.and_eq_true_iff.mp htext
  have hnumeric : (b.cellAt k.p1.toNat).flags.numeric = true := (Bool.and_eq_true_iff.mp honly).2
  have hisNumeric : (CompareOptions.ofBits k.p5).isNumeric = false := by
    cases ho : (CompareOptions.ofBits k.p5).isNumeric with
    | false => rfl
    | true =>
      rw [CompareOptions.isText_eq_false ho] at hisText
      cases hisText
  obtain ⟨hnull, ⟨hstr, hblob⟩, hzero, -⟩ := h.operands.1.number hnumeric
  obtain ⟨t, l, hb', hrun⟩ := h.tracked_others hb (by rw [heq, hnull]; rfl) (by rw [hisNumeric]; rfl)
  have hdirect := h.direct_values (by rw [heq, hnull]; rfl) rel
  have hfinish {S : Nat → Prop} {b₁ b₁' : Bank} (halike : b₁.Alike S b₁') (hreach : b₁.reach = b.reach)
    (holds p : Bool) (f g : Flags) := h.finish halike hreach holds (p := p) (f := f) (g := g)
  rw [heq] at hrun hdirect hfinish
  have h₀ : (b.knowing t l).Paired Fact.True b := (paired hb hn).of_knowing hb'
  have hcoerce (n : Nat) : Direct.coerce (.ofBits k.p5) n (b.cellAt k.p1.toNat) =
      (b.cellAt k.p1.toNat).stringify n true := by
    rw [Direct.coerce, hisNumeric, Bool.false_and, if_neg Bool.false_ne_true, if_pos htext]
  obtain ⟨b₁, p1, hrun₁, h₁, ht₁, hsame₁⟩ := h₀.coerce h.left.2 (.ofBits k.p5)
  have ht₁ : b.Touched k.p1.toNat ((b.cellAt k.p1.toNat).stringify b.fresh true) b₁ := by
    rw [← hcoerce]
    exact ⟨ht₁.size, ht₁.reach, ht₁.cell, ht₁.others⟩
  obtain ⟨hnull₁, hstr₁, hnumeric₁, hzero₁⟩ := (b.cellAt k.p1.toNat).flags_stringify b.fresh
  have hp1 : p1 = true := by
    cases p1 with
    | true => rfl
    | false =>
      have hflags := congrArg (fun c : Cell => c.flags.str) (hsame₁ rfl k.p1.toNat)
      rw [ht₁.cell, hstr₁, cellAt_knowing, hstr] at hflags
      cases hflags
  -- the direct rule finds a text, the tracked rule goes by the marks from before
  obtain ⟨b₂, hrun₂, h₂, ht₂⟩ := h₁.direct_look Fact.law_true (ht₁.reach.symm ▸ h.left.2)
    (Cell.uniform_stringify true) fun g => pure (g, true)
  have h₂' := h₁.idle (f := Direct.coerce (.ofBits k.p5)) (r := k.p1.toNat) (by
    rw [cellAt_put (b := b.renewed) (hb.lt_size h.left.2), if_pos rfl, CompareOptions.coerce_coerce])
  have hwritten := h₂'.written h₂.obeys ht₂
  have hreach₂ : b₂.reach = b.reach := ht₂.reach.trans ht₁.reach
  obtain ⟨hnull₂, -, hnumeric₂, hzero₂⟩ := (b₁.cellAt k.p1.toNat).flags_stringify b₁.fresh
  rw [← ht₁.cell] at hnull₁ hnumeric₁ hzero₁
  rw [← ht₂.cell] at hnull₂ hnumeric₂ hzero₂
  have hrun₃ := tracked_widen_idle (b := b₂) (r := k.p1.toNat) (b.cellAt k.p1.toNat).flags (hzero₁ hzero)
  have hrun₄ := tracked_widen_idle (b := b₂) (r := k.p1.toNat) (b.cellAt k.p1.toNat).flags (hzero₂ (hzero₁ hzero))
  have hflags := h₂'.flags_eq k.p1.toNat
  have hrun₃' := direct_widen_idle (b.cellAt k.p1.toNat).flags ((congrArg Flags.zero hflags).trans (hzero₁ hzero))
  have hn₂ := hnull₂.trans (hnull₁.trans hnull)
  obtain ⟨t', l', hrun₅, hobeys₅⟩ := compare_run h₂.obeys (hreach₂.symm ▸ h.left.2) (hreach₂.symm ▸ h.left.2) hn₂ hn₂
    k.p4.collation?
  rw [Cell.judged, Bool.and_not_self, if_neg Bool.false_ne_true, Cell.compare_self _ hn₂ hnumeric₂] at hrun₅
  obtain ⟨flow, b₃, b₃', hrun₆, hrun₆', h₃, -, hflags₃, hflags₃'⟩ := hfinish
    (hwritten.of_knowing (hobeys₅.mono Fact.Holds.flags)) hreach₂ (rel.holds .eq) true
    (b.cellAt k.p1.toNat).flags (b.cellAt k.p1.toNat).flags fun hf => by cases hf
  refine ⟨flow, b₃, b₃', ?_, ?_, fun r hr => ?_⟩
  · have hrun₂ : Tracked.coerce (.ofBits k.p5) k.p1.toNat (b.cellAt k.p1.toNat).flags b₁ =
        .ok ((b₂.cellAt k.p1.toNat).flags, true) b₂ := by
      rw [Tracked.coerce, hisNumeric, Bool.false_and, if_neg Bool.false_ne_true, if_pos htext]
      exact hrun₂
    rw [hp1] at hrun₁
    rw [hrun]
    exact (bind_of_ok hrun₁).trans ((bind_of_ok hrun₂).trans ((bind_of_ok hrun₃).trans ((bind_of_ok hrun₄).trans
      ((bind_of_ok hrun₅).trans hrun₆))))
  · rw [hdirect, bind_of_ok (modifyCellWith_run _ _ _), bind_of_ok (modifyCellWith_run _ _ _), bind_of_ok hrun₃',
      bind_of_ok hrun₃', bind_of_ok (cell_run _ _), bind_of_ok (cell_run _ _), Cell.compare_self _
      ((congrArg Flags.null hflags).trans (hnull₁.trans hnull)) ((congrArg Flags.numeric hflags).trans hnumeric₁)]
    exact hrun₆'
  · by_cases hrp : r = k.p1.toNat
    · rw [hrp]
      exact Cell.view_eq_of_number (by rw [hflags₃]; exact hstr) (by rw [hflags₃]; exact hblob)
        (hflags₃'.trans hflags₃.symm) (h₃.payload _)
    · have hapart := ht₁.apart hn hrp (not_not.mp fun hnot => hr ⟨hrp, hnot⟩)
      exact h₃.view_eq (not_or.mpr ⟨hrp, not_not.mpr hapart⟩)

end Compares

/-- A text in front of a number, and a blob that counts three zeros. -/
def mixed : Bank := ofCells #[.null, .ofBytes .onlyStr 0 [97], .ofInt 5, .ofZeros 3] true true 1

end Bank

end QueryMachine
