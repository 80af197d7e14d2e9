import Mathlib
import QueryMachine.Proofs.Comparing
import QueryMachine.Proofs.Renaming

/-!
What the tracked and the direct rule for jumps and truth values from two registers do to their operands, side
by side, and which relation the tracked rule decides.
-/

namespace QueryMachine

namespace Relation

def converse : Relation → Relation
  | .eq => .eq
  | .ne => .ne
  | .lt => .gt
  | .le => .ge
  | .gt => .lt
  | .ge => .le

theorem holds_gt (rel : Relation) : rel.holds .gt = rel.converse.holds .lt := by cases rel <;> rfl

end Relation

namespace Cell

/-- A rule that does not care about the names of buffers. -/
def Uniform (f : Nat → Cell → Cell) : Prop :=
  ∀ {ρ : Naming} {n n' : Nat} {c c' : Cell}, ρ.OneToOne n n' → c.Renamed ρ c' → (f n c).Renamed (ρ.add n n') (f n' c')

theorem uniform_stringify (force : Bool) : Uniform fun n => stringify n force := fun hρ h => h.stringify hρ force

theorem uniform_expandBlob : Uniform expandBlob := fun hρ h => h.expandBlob hρ

theorem uniform_applyNumericAffinity : Uniform fun _ => applyNumericAffinity false :=
  fun _ h => h.applyNumericAffinity.mono fun _ _ hx => .inl hx

theorem overwrites_of_string {c d : Cell} (hdata : c.data = d.data) (hterm : c.flags.term = d.flags.term) :
    c.overwrites d = false := by
  rw [overwrites, hdata, hterm, bne_self_eq_false, Bool.false_or, Bool.and_not_self, Bool.and_false]

theorem applyNumericAffinity_eq (c : Cell) : c.applyNumericAffinity false =
    if c.readReal.whole then
      if c.readInt.fit = .exact then
        (c.withPayload (intToWord c.readInt.value)).withFlags { c.flags with int := true }
      else (c.withPayload c.readReal.value.bits).withFlags { c.flags with real := true }
    else c := by
  simp only [applyNumericAffinity, Bool.false_eq_true, if_false, withPayload, withFlags]

theorem overwrites_applyNumericAffinity (c : Cell) : (c.applyNumericAffinity false).overwrites c = false := by
  rw [applyNumericAffinity_eq]
  split
  · split <;> exact overwrites_of_string rfl rfl
  · exact overwrites_of_string rfl rfl

theorem applyNumericAffinity_idem (c : Cell) :
    (c.applyNumericAffinity false).applyNumericAffinity false = c.applyNumericAffinity false := by
  rw [applyNumericAffinity_eq c]
  split
  · rename_i hwhole
    split
    · rename_i hfit
      rw [applyNumericAffinity_eq]
      exact (if_pos hwhole).trans (if_pos hfit)
    · rename_i hfit
      rw [applyNumericAffinity_eq]
      exact (if_pos hwhole).trans (if_neg hfit)
  · rename_i hwhole
    rw [applyNumericAffinity_eq, if_neg hwhole]

structure SameString (c c' : Cell) : Prop where
  size : c'.size = c.size
  isNone : c'.data.isNone = c.data.isNone
  bytes : c'.bytes = c.bytes

theorem Renamed.sameString {ρ : Naming} {c c' : Cell} (h : c.Renamed ρ c') : c.SameString c' :=
  ⟨h.size, h.isNone, h.bytes⟩

theorem SameString.view {c c' : Cell} (h : c.SameString c') (hflags : c'.flags = c.flags)
    (hpayload : c'.payload = c.payload) : c'.view = c.view := by
  simp only [Content.view, Content.zeros, Content.int, Content.real, hflags, hpayload, h.size, h.isNone, h.bytes]

end Cell

namespace Bank

variable {P : Fact → Cell → Prop} {b b' : Bank} {r i j : Nat} {o : CompareOptions}

/-! The two rules side by side. -/

/-- Two banks with the same cells but for the names of buffers; what the first one knows obeys a law. -/
structure Paired (P : Fact → Cell → Prop) (b b' : Bank) : Prop where
  obeys : b.Obeys P
  renames : ∃ ρ, b.Renames ρ b'

/-- One register has become `c`; the others see what was written to its buffer. -/
structure Touched (b : Bank) (r : Nat) (c : Cell) (b₁ : Bank) : Prop where
  size : b₁.cells.size = b.cells.size
  reach : b₁.reach = b.reach
  cell : b₁.cellAt r = c
  others : ∀ j, j ≠ r → b₁.cellAt j = if c.overwrites (b.cellAt r) then c.seeing (b.cellAt j) else b.cellAt j

theorem Touched.flags {c : Cell} {b₁ : Bank} (h : b.Touched r c b₁) (hj : j ≠ r) :
    (b₁.cellAt j).flags = (b.cellAt j).flags := by
  rw [h.others j hj]
  split
  · exact Cell.flags_seeing _ _
  · rfl

theorem Touched.refl (b : Bank) (r : Nat) : b.Touched r (b.cellAt r) b :=
  ⟨rfl, rfl, rfl, fun _ _ => by rw [Cell.overwrites_of_string rfl rfl, if_neg Bool.false_ne_true]⟩

namespace Paired

theorem flags_eq (h : b.Paired P b') (r : Nat) : (b'.cellAt r).flags = (b.cellAt r).flags := by
  obtain ⟨ρ, hρ⟩ := h.renames
  exact (hρ.cells r).flags

theorem of_knowing (h : b.Paired P b') {t : Sheet} {l : Ledger} (hobeys : (b.knowing t l).Obeys P) :
    (b.knowing t l).Paired P b' := by
  obtain ⟨ρ, hρ⟩ := h.renames
  exact ⟨hobeys, ρ, hρ.knowing t l⟩

theorem direct (h : b.Paired P b') (hP : Fact.Law P) (hr : r < b.reach) {f : Nat → Cell → Cell}
    (hf : Cell.Uniform f) :
    ∃ b₁, Bank.direct r f b = .ok () b₁ ∧ b₁.Paired P (b'.renewed.put r (f b'.fresh (b'.cellAt r))) ∧
      b.Touched r (f b.fresh (b.cellAt r)) b₁ := by
  obtain ⟨ρ, hρ⟩ := h.renames
  obtain ⟨t, l, hrun, hobeys⟩ := h.obeys.direct_run hP hr f
  have hlt := h.obeys.lt_size hr
  refine ⟨_, hrun, ⟨hobeys, _, (hρ.modify hlt fun _ _ _ _ => hf).knowing t l⟩, size_put _ _ _, reach_put _ _ _, ?_, fun j hj => ?_⟩
  · rw [cellAt_knowing, cellAt_put (b := b.renewed) hlt, if_pos rfl]
  · rw [cellAt_knowing, cellAt_put (b := b.renewed) hlt, if_neg hj.symm]
    rfl

theorem idle (h : b.Paired P b') {f : Nat → Cell → Cell} (hf : f b'.fresh (b'.cellAt r) = b'.cellAt r) :
    b.Paired P (b'.renewed.put r (f b'.fresh (b'.cellAt r))) := by
  obtain ⟨ρ, hρ⟩ := h.renames
  exact ⟨h.obeys, ρ, hρ.modify_right hf⟩

theorem direct_idle (h : b.Paired P b') (hP : Fact.Law P) (hr : r < b.reach) {f : Nat → Cell → Cell}
    (hf : f b.fresh (b.cellAt r) = b.cellAt r) :
    ∃ b₁, Bank.direct r f b = .ok () b₁ ∧ b₁.Paired P b' ∧ b₁.reach = b.reach ∧ ∀ j, b₁.cellAt j = b.cellAt j := by
  obtain ⟨ρ, hρ⟩ := h.renames
  obtain ⟨t, l, hrun, hobeys⟩ := h.obeys.direct_run hP hr f
  have hput : b.renewed.put r (b.cellAt r) = b.renewed := put_cellAt b.renewed r
  rw [hf, hput] at hrun hobeys
  exact ⟨_, hrun, ⟨hobeys, ρ, hρ.renewed_left.knowing t l⟩, rfl, fun _ => rfl⟩

theorem direct_look (h : b.Paired P b') (hP : Fact.Law P) (hr : r < b.reach) {f : Nat → Cell → Cell}
    (hf : Cell.Uniform f) {α : Type} (k : Flags → BankM α) :
    ∃ b₁, (do Bank.direct r f; k (← flags r)) b = k (b₁.cellAt r).flags b₁ ∧
      b₁.Paired P (b'.renewed.put r (f b'.fresh (b'.cellAt r))) ∧ b.Touched r (f b.fresh (b.cellAt r)) b₁ := by
  obtain ⟨b₁, hrun, hpaired, htouched⟩ := h.direct hP hr hf
  obtain ⟨t, l, hlook, hobeys⟩ := hpaired.obeys.flags_run hP (by rw [htouched.reach]; exact hr)
  exact ⟨b₁.knowing t l, (bind_of_ok hrun).trans (bind_of_ok hlook), hpaired.of_knowing hobeys,
    htouched.size, htouched.reach, htouched.cell, htouched.others⟩

theorem coerce (h : b.Paired Fact.True b') (hr : r < b.reach) (o : CompareOptions) :
    ∃ b₁ changed, Tracked.coerce o r (b.cellAt r).flags b = .ok ((b₁.cellAt r).flags, changed) b₁ ∧
      b₁.Paired Fact.True (b'.renewed.put r (Direct.coerce o b'.fresh (b'.cellAt r))) ∧
      b.Touched r (Direct.coerce o b.fresh (b.cellAt r)) b₁ ∧
      (changed = false → ∀ j, b₁.cellAt j = b.cellAt j) := by
  have hflags := h.flags_eq r
  by_cases hnumeric : (o.isNumeric && (b.cellAt r).flags.onlyText) = true
  · have hrule : Direct.coerce o b.fresh (b.cellAt r) = (b.cellAt r).applyNumericAffinity false := by
      rw [Direct.coerce, if_pos hnumeric]
    have hrule' : Direct.coerce o b'.fresh (b'.cellAt r) = (b'.cellAt r).applyNumericAffinity false := by
      rw [Direct.coerce, hflags, if_pos hnumeric]
    obtain ⟨b₁, hrun, hpaired, htouched⟩ := h.direct_look Fact.law_true hr Cell.uniform_applyNumericAffinity
      fun g => pure (g, true)
    rw [hrule, hrule', Tracked.coerce, if_pos hnumeric]
    exact ⟨b₁, true, hrun, hpaired, htouched, fun hf => by cases hf⟩
  · by_cases htext : (o.isText && (b.cellAt r).flags.onlyNumber) = true
    · have hrule : Direct.coerce o b.fresh (b.cellAt r) = (b.cellAt r).stringify b.fresh true := by
        rw [Direct.coerce, if_neg hnumeric, if_pos htext]
      have hrule' : Direct.coerce o b'.fresh (b'.cellAt r) = (b'.cellAt r).stringify b'.fresh true := by
        rw [Direct.coerce, hflags, if_neg hnumeric, if_pos htext]
      obtain ⟨b₁, hrun, hpaired, htouched⟩ := h.direct_look Fact.law_true hr (Cell.uniform_stringify true)
        fun g => pure (g, true)
      rw [hrule, hrule', Tracked.coerce, if_neg hnumeric, if_pos htext]
      exact ⟨b₁, true, hrun, hpaired, htouched, fun hf => by cases hf⟩
    · have hrule : Direct.coerce o b.fresh (b.cellAt r) = b.cellAt r := by
        rw [Direct.coerce, if_neg hnumeric, if_neg htext]
      have hrule' : Direct.coerce o b'.fresh (b'.cellAt r) = b'.cellAt r := by
        rw [Direct.coerce, hflags, if_neg hnumeric, if_neg htext]
      rw [hrule, Tracked.coerce, if_neg hnumeric, if_neg htext]
      exact ⟨b, false, rfl, h.idle hrule', Touched.refl b r, fun _ _ => rfl⟩

def back (f before : Flags) : Flags := if f.zero then { before with zero := false } else before

theorem widen (h : b.Paired Fact.True b') (hr : r < b.reach) (before : Flags) :
    ∃ b₁ b₁' wide, Tracked.widen r (b.cellAt r).flags before b = .ok (back (b.cellAt r).flags before, wide) b₁ ∧
      Direct.widen r before b' = .ok (back (b.cellAt r).flags before) b₁' ∧ b₁.Paired Fact.True b₁' ∧
      b.Touched r ((b.cellAt r).expandBlob b.fresh) b₁ ∧
      (wide = false → (b.cellAt r).flags.zero = false ∧ ∀ j, b₁.cellAt j = b.cellAt j) := by
  have hflags := h.flags_eq r
  by_cases hz : (b.cellAt r).flags.zero = true
  · obtain ⟨b₁, hrun, hpaired, htouched⟩ := h.direct Fact.law_true hr Cell.uniform_expandBlob
    obtain ⟨t, l, hlook, hobeys⟩ := hpaired.obeys.flags_run Fact.law_true (by rw [htouched.reach]; exact hr)
    refine ⟨b₁.knowing t l, _, true, ?_, ?_, hpaired.of_knowing hobeys,
      ⟨htouched.size, htouched.reach, htouched.cell, htouched.others⟩, fun hf => by cases hf⟩
    · rw [Tracked.widen, if_pos hz, back, if_pos hz]
      exact (bind_of_ok hrun).trans (bind_of_ok (discard_of_ok hlook))
    · rw [Direct.widen, bind_of_ok (cell_run b' r), hflags, if_pos hz, bind_of_ok (modifyCellWith_run _ _ _), back,
        if_pos hz]
      rfl
  · have hrule : (b.cellAt r).expandBlob b.fresh = b.cellAt r := by rw [Cell.expandBlob, if_neg hz]
    refine ⟨b, b', false, ?_, ?_, h, ?_, fun _ => ⟨Bool.eq_false_of_not_eq_true hz, fun _ => rfl⟩⟩
    · rw [Tracked.widen, if_neg hz, back, if_neg hz]
      rfl
    · rw [Direct.widen, bind_of_ok (cell_run b' r), hflags, if_neg hz, back, if_neg hz]
      rfl
    · rw [hrule]
      exact Touched.refl b r

end Paired

/-- Two banks with the same payloads, and outside of `S` also with the same marks and strings. -/
structure Alike (S : Nat → Prop) (b b' : Bank) : Prop where
  obeys : b.Obeys Fact.Honest
  size : b'.cells.size = b.cells.size
  payload : ∀ r, (b'.cellAt r).payload = (b.cellAt r).payload
  flags : ∀ r, ¬ S r → (b'.cellAt r).flags = (b.cellAt r).flags
  string : ∀ r, ¬ S r → (b.cellAt r).SameString (b'.cellAt r)

theorem Paired.alike (h : b.Paired Fact.True b') (S : Nat → Prop) : b.Alike S b' := by
  obtain ⟨ρ, hρ⟩ := h.renames
  exact ⟨h.obeys.mono Fact.Holds.flags, hρ.size, fun r => (hρ.cells r).payload, fun r _ => (hρ.cells r).flags,
    fun r _ => (hρ.cells r).sameString⟩

namespace Alike

variable {S : Nat → Prop}

theorem view_eq (h : b.Alike S b') (hr : ¬ S r) : (b'.cellAt r).view = (b.cellAt r).view :=
  (h.string r hr).view (h.flags r hr) (h.payload r)

theorem of_knowing (h : b.Alike S b') {t : Sheet} {l : Ledger} (hobeys : (b.knowing t l).Obeys Fact.Honest) :
    (b.knowing t l).Alike S b' :=
  ⟨hobeys, h.size, h.payload, h.flags, h.string⟩

theorem withCell (h : b.Alike S b') (hr : r < b.reach) {c d : Cell} (hpayload : d.payload = c.payload)
    (hflags : ¬ S r → d.flags = c.flags) (hstring : (b.cellAt r).SameString (b'.cellAt r) → c.SameString d)
    {t : Sheet} {l : Ledger} (hobeys : ((b.withCell r c).knowing t l).Obeys Fact.Honest) :
    ((b.withCell r c).knowing t l).Alike S (b'.withCell r d) := by
  have hlt := h.obeys.lt_size hr
  have hlt' : r < b'.cells.size := h.size ▸ hlt
  refine ⟨hobeys, ?_, fun j => ?_, fun j hj => ?_, fun j hj => ?_⟩
  · rw [size_withCell]
    exact h.size.trans (size_withCell b r c).symm
  all_goals rw [cellAt_knowing, cellAt_withCell hlt, cellAt_withCell hlt']
  · split
    · exact hpayload
    · exact h.payload j
  · split
    · rename_i hrj
      exact hflags (hrj ▸ hj)
    · exact h.flags j hj
  · split
    · rename_i hrj
      exact hstring (h.string r (hrj ▸ hj))
    · exact h.string j hj

theorem setFlags_run (h : b.Alike S b') (hr : r < b.reach) (f g : Flags) (hflags : ¬ S r → g = f) :
    ∃ b₁, Bank.setFlags r f b = .ok () b₁ ∧ b₁.Alike S (b'.withCell r ((b'.cellAt r).withFlags g)) ∧
      b₁.reach = b.reach ∧ ∀ j, b₁.cellAt j = if r = j then (b.cellAt r).withFlags f else b.cellAt j := by
  obtain ⟨t, l, hrun, hobeys⟩ := h.obeys.setFlags_run Fact.law_honest hr f fun _ _ g' hg' => by
    simpa [Fact.noteFlags, Fact.flags?, Cell.withFlags, eq_comm] using hg'
  exact ⟨_, hrun, h.withCell hr (c := (b.cellAt r).withFlags f) (d := (b'.cellAt r).withFlags g) (h.payload r)
    hflags (fun hs => ⟨hs.size, hs.isNone, hs.bytes⟩) hobeys, rfl,
    fun j => cellAt_withCell (h.obeys.lt_size hr) j _⟩

theorem setInt_run (h : b.Alike S b') (hr : r < b.reach) {n : Int} (hn : fitsWord n = true) :
    ∃ b₁, Bank.setInt r n false b = .ok () b₁ ∧
      b₁.Alike S (b'.withCell r ((b'.cellAt r).withPayload (intToWord n))) ∧
      b₁.reach = b.reach ∧ ∀ j, b₁.cellAt j = if r = j then (b.cellAt r).withPayload (intToWord n) else b.cellAt j := by
  obtain ⟨t, l, hrun, hobeys⟩ := h.obeys.setInt_run Fact.law_honest hr hn fun f hf => hf
  exact ⟨_, hrun, h.withCell hr (c := (b.cellAt r).withPayload (intToWord n))
    (d := (b'.cellAt r).withPayload (intToWord n)) rfl (h.flags r) (fun hs => ⟨hs.size, hs.isNone, hs.bytes⟩) hobeys,
    rfl, fun j => cellAt_withCell (h.obeys.lt_size hr) j _⟩

theorem retype_run (h : b.Alike S b') (hr : r < b.reach) (kind : Flags) :
    ∃ b₁, Bank.retype r kind b = .ok () b₁ ∧
      b₁.Alike S (b'.withCell r ((b'.cellAt r).withFlags ((b'.cellAt r).flags.retype kind))) ∧
      b₁.reach = b.reach ∧ ∀ j, r ≠ j → b₁.cellAt j = b.cellAt j := by
  obtain ⟨t, l, hlook, hobeys⟩ := h.obeys.flags_run Fact.law_honest hr
  obtain ⟨b₁, hset, halike, hreach, hcells⟩ := (h.of_knowing hobeys).setFlags_run hr _
    ((b'.cellAt r).flags.retype kind) fun hS => congrArg (·.retype kind) (h.flags r hS)
  exact ⟨b₁, (bind_of_ok hlook).trans hset, halike, hreach, fun j hj => by rw [hcells, if_neg hj, cellAt_knowing]⟩

theorem decide_run {k : Instruction} (h : b.Alike S b')
    (hout : o.store = true → 0 ≤ k.p2 ∧ k.p2.toNat < b.reach) (holds : Bool) :
    ∃ flow b₁ b₁', Tracked.decide o k holds b = .ok flow b₁ ∧ Direct.decide o k holds b' = .ok flow b₁' ∧
      b₁.Alike S b₁' ∧ b₁.reach = b.reach ∧ ∀ j, (o.store = true → k.p2.toNat ≠ j) → b₁.cellAt j = b.cellAt j := by
  cases hs : o.store with
  | false =>
    refine ⟨.jumpIf holds k.p2, b, b', ?_, ?_, h, rfl, fun _ _ => rfl⟩
    · rw [Tracked.decide, hs]
      rfl
    · rw [Direct.decide, hs]
      rfl
  | true =>
    obtain ⟨h0, hr⟩ := hout hs
    have hlt' : k.p2.toNat < b'.cells.size := h.size.symm ▸ h.obeys.lt_size hr
    have hfits : fitsWord (holds.toNat : Int) = true := by cases holds <;> rfl
    have hregister : register k.p2 b = .ok k.p2.toNat b := register_run h0 (by omega)
    obtain ⟨b₁, hretype, h₁, hreach₁, hcells₁⟩ := h.retype_run hr .onlyInt
    obtain ⟨b₂, hset, h₂, hreach₂, hcells₂⟩ := h₁.setInt_run (by rw [hreach₁]; exact hr) hfits
    rw [cellAt_withCell_self hlt', withCell_withCell] at h₂
    refine ⟨.next, b₂, _, ?_, ?_, h₂, hreach₂.trans hreach₁, fun j hj => ?_⟩
    · rw [Tracked.decide, if_pos hs, bind_of_ok hregister, bind_of_ok hretype, bind_of_ok hset]
      rfl
    · rw [Direct.decide, if_pos hs, bind_of_ok (slot_run h0), bind_of_ok (modifyCell_run _ _ _)]
      rfl
    · rw [hcells₂, if_neg (hj rfl), hcells₁ j (hj rfl)]

end Alike

/-- The end of the direct rule: the marks of both operands are written back. -/
def restore (r1 r3 : Nat) (f1 f3 : Flags) (flow : Flow) : BankM Flow := do
  modifyCell r1 fun c => { c with flags := f1 }
  modifyCell r3 fun c => { c with flags := f3 }
  return flow

theorem restore_run (r1 r3 : Nat) (f1 f3 : Flags) (flow : Flow) (b : Bank) :
    restore r1 r3 f1 f3 flow b = .ok flow ((b.withCell r1 ((b.cellAt r1).withFlags f1)).withCell r3
      (((b.withCell r1 ((b.cellAt r1).withFlags f1)).cellAt r3).withFlags f3)) := rfl

theorem restore_again {m : BankM Flow} {f g : Flags} {flow : Flow} {b₁ : Bank} (hr : r < b₁.cells.size)
    (h : (m >>= restore r r f g) b = .ok flow b₁) (g' : Flags) :
    (m >>= restore r r f g') b = .ok flow (b₁.withCell r ((b₁.cellAt r).withFlags g')) := by
  obtain ⟨flow', b₀, hm, hrestore⟩ := bind_eq_ok h
  rw [restore_run] at hrestore
  cases hrestore
  rw [size_withCell, size_withCell] at hr
  rw [bind_of_ok hm, restore_run]
  simp only [withCell_withCell, cellAt_withCell_self hr]
  rfl

theorem withCell_withFlags_self {f : Flags} (h : (b.cellAt r).flags = f) :
    b.withCell r ((b.cellAt r).withFlags f) = b := by
  rw [← h]
  exact withCell_cellAt b r

/-- Marks that need no writing back are not written back by the tracked rule. -/
theorem Alike.restore_run {S : Nat → Prop} (h : b.Alike S b') (hi : i < b.reach) (hj : j < b.reach) {p : Bool}
    {f g : Flags} (hsame : p = false → ¬ S i ∧ ¬ S j ∧ (b.cellAt i).flags = f ∧ (b.cellAt j).flags = g) (flow : Flow) :
    ∃ b₁ b₁', (do
        if p then
          setFlags i f
          setFlags j g
        return flow : BankM Flow) b = .ok flow b₁ ∧
      restore i j f g flow b' = .ok flow b₁' ∧ b₁.Alike S b₁' ∧ b₁.reach = b.reach ∧
      (b₁.cellAt j).flags = g ∧ (b₁'.cellAt j).flags = g := by
  cases p with
  | true =>
    obtain ⟨b₁, hset₁, h₁, hreach₁, -⟩ := h.setFlags_run hi f f fun _ => rfl
    obtain ⟨b₂, hset₂, h₂, hreach₂, hcells⟩ := h₁.setFlags_run (by rw [hreach₁]; exact hj) g g fun _ => rfl
    refine ⟨b₂, _, (bind_of_ok hset₁).trans (bind_of_ok hset₂), Bank.restore_run .., h₂, hreach₂.trans hreach₁, ?_, ?_⟩
    · rw [hcells, if_pos rfl]
      rfl
    · rw [cellAt_withCell_self (by rw [size_withCell, h.size]; exact h.obeys.lt_size hj)]
      rfl
  | false =>
    obtain ⟨hSi, hSj, hf, hg⟩ := hsame rfl
    refine ⟨b, b', rfl, ?_, h, rfl, hg, (h.flags j hSj).trans hg⟩
    rw [Bank.restore_run, withCell_withFlags_self ((h.flags i hSi).trans hf),
      withCell_withFlags_self ((h.flags j hSj).trans hg)]

end Bank

end QueryMachine
