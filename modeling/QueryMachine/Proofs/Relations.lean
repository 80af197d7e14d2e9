import Mathlib
import QueryMachine.Proofs.Arithmetic
import QueryMachine.Proofs.Normalising

/-!
The six comparisons of two values. They raise the same error or agree on one order of the operands, and
they leave the registers as they were, but for counted zeros, which are written out, and for strings in
the buffer of an operand that is written as text or with its zeros.
-/

namespace QueryMachine

theorem Relation.holds_coherent (o : Ordering) :
    [Relation.lt.holds o, Relation.eq.holds o, Relation.gt.holds o].count true = 1 ∧
      Relation.ne.holds o = !Relation.eq.holds o ∧ Relation.le.holds o = !Relation.gt.holds o ∧
      Relation.ge.holds o = !Relation.lt.holds o := by
  cases o <;> decide

def View.expanded : View → View
  | .parts text (some bytes) (some n) int real =>
    .parts text (some (bytes ++ List.replicate n.toNat 0)) none int real
  | v => v

namespace Cell

/-- A value that can be compared, with all of its string if it counts zeros. -/
structure Comparand (c : Cell) : Prop extends c.Operand where
  value : c.flags.null = false
  whole : c.flags.zero = true → c.bytes.length = c.size

/-- The operand is written to its buffer for the comparison: a number as text, or counted zeros. -/
def Stirred (o : CompareOptions) (c : Cell) : Bool := o.isText && c.flags.onlyNumber || c.flags.zero

/-- What happens to an operand that had the marks `f`. -/
def prepared (o : CompareOptions) (f : Flags) (name : Nat) (c : Cell) : Cell :=
  if o.isNumeric && f.onlyText then c.applyNumericAffinity false
  else if o.isText && f.onlyNumber then c.stringify name true
  else if f.zero then c.expandBlob name
  else c

/-- Under the marks of `c`, nothing else is seen of `d`; its zeros may have been written out. -/
structure Veils (c d : Cell) : Prop where
  null : d.flags.null = c.flags.null
  zero : c.flags.zero = false → d.flags.zero = false
  number : c.flags.numeric = true → d.payload = c.payload
  string : c.flags.textual = true → c.flags.zero = false → d.data = c.data ∧ d.size = c.size
  zeros : c.flags.zero = true → d = c ∨ d.flags.zero = false ∧ d.size = c.size + c.zeros.toNat ∧
    d.bytes = c.bytes ++ List.replicate c.zeros.toNat 0 ∧ d.data.isSome = true

variable {c d : Cell} {o : CompareOptions}

theorem Veils.refl (c : Cell) : c.Veils c := ⟨rfl, id, fun _ => rfl, fun _ _ => ⟨rfl, rfl⟩, fun _ => .inl rfl⟩

theorem Comparand.cases (h : c.Comparand) :
    c.flags.numeric = true ∧ c.flags.textual = false ∧ c.flags.zero = false ∨
    c.flags.numeric = false ∧ c.flags.textual = true := by
  have hkind := h.kind
  have hzeros := h.zeros
  have hvalue := h.value
  rw [Flags.numeric, Flags.textual]
  revert hkind hzeros hvalue
  generalize c.flags.null = n, c.flags.int = i, c.flags.real = x, c.flags.str = s, c.flags.blob = b, c.flags.zero = z
  revert n i x s b z
  decide

theorem Comparand.text (h : c.Comparand) (hstr : c.flags.str = true) : c.flags.zero = false := by
  have hkind := h.kind
  have hzeros := h.zeros
  revert hkind hzeros hstr
  generalize c.flags.null = n, c.flags.int = i, c.flags.real = x, c.flags.str = s, c.flags.blob = b, c.flags.zero = z
  revert n i x s b z
  decide

theorem retains_readNumber (c : Cell) : c.Retains (c.applyNumericAffinity false) ∧
    (c.applyNumericAffinity false).size = c.size ∧ (c.applyNumericAffinity false).flags.null = c.flags.null ∧
    (c.applyNumericAffinity false).flags.zero = c.flags.zero := by
  rw [applyNumericAffinity_eq]
  split
  · split <;> exact ⟨⟨rfl, rfl, rfl, id⟩, rfl, rfl, rfl⟩
  · exact ⟨.refl c, rfl, rfl, rfl⟩

theorem flags_prepared (o : CompareOptions) (f : Flags) (name : Nat) (c : Cell) :
    (c.prepared o f name).flags.null = c.flags.null ∧
      (c.flags.zero = false → (c.prepared o f name).flags.zero = false) := by
  rw [Cell.prepared]
  split
  · obtain ⟨-, -, hnull, hzero⟩ := c.retains_readNumber
    exact ⟨hnull, hzero.trans⟩
  · split
    · obtain ⟨hnull, -, -, hzero⟩ := c.flags_stringify name
      exact ⟨hnull, hzero⟩
    · split
      · exact ⟨(c.flags_expandBlob name).1, fun _ => zero_expandBlob _ _⟩
      · exact ⟨rfl, id⟩

theorem Veils.prepared (h : c.Veils d) (hc : c.Comparand) (o : CompareOptions) (name : Nat) :
    c.Veils (d.prepared o c.flags name) := by
  rw [Cell.prepared]
  split
  · rename_i htext
    rw [Bool.and_eq_true, Flags.onlyText, Bool.and_eq_true, Bool.and_eq_true, Bool.not_eq_true',
      Bool.not_eq_true'] at htext
    obtain ⟨hkept, hsize, hnull, hzero⟩ := d.retains_readNumber
    have hplain := hc.text htext.2.1.1
    refine ⟨hnull.trans h.null, fun hz => hzero.trans (h.zero hz), fun hnumeric => ?_, fun ht hz => ?_, fun hz => ?_⟩
    · rw [Flags.numeric, htext.2.1.2, htext.2.2] at hnumeric
      cases hnumeric
    · exact ⟨hkept.data.trans (h.string ht hz).1, hsize.trans (h.string ht hz).2⟩
    · rw [hplain] at hz
      cases hz
  · split
    · rename_i hnumber
      rw [Bool.and_eq_true, Flags.onlyNumber, Bool.and_eq_true] at hnumber
      obtain ⟨-, hplain, hz⟩ | ⟨hnot, -⟩ := hc.cases
      · obtain ⟨hnull, -, -, hzero⟩ := d.flags_stringify name
        refine ⟨hnull.trans h.null, fun hz => hzero (h.zero hz), fun hnumeric => ?_, fun ht => ?_, fun hz' => ?_⟩
        · rw [payload_stringify, h.number hnumeric]
        · rw [hplain] at ht
          cases ht
        · rw [hz] at hz'
          cases hz'
      · rw [hnot] at hnumber
        cases hnumber.2.2
    · split
      · rename_i hz
        obtain ⟨-, -, hnone⟩ | ⟨hnot, -⟩ := hc.cases
        · rw [hnone] at hz
          cases hz
        refine ⟨(d.flags_expandBlob name).1.trans h.null, fun hz' => ?_, fun hnumeric => ?_, fun _ hz' => ?_, fun _ => .inr ?_⟩
        · exact zero_expandBlob _ _
        · rw [hnot] at hnumeric
          cases hnumeric
        · rw [hz] at hz'
          cases hz'
        · refine ⟨zero_expandBlob _ _, ?_⟩
          obtain rfl | hdone := h.zeros hz
          · obtain ⟨own, -, -, hdata⟩ := expandBlob_of_zero hz name
            refine ⟨size_expandBlob hz name, ?_, by rw [hdata]; rfl⟩
            rw [Content.bytes, hdata, size_expandBlob hz]
            exact List.take_of_length_le (by simp [hc.whole hz])
          · rw [expandBlob_of_not_zero hdone.1]
            exact hdone.2
      · exact h

theorem expanded_view (h : c.flags.zero = false) : c.view.expanded = c.view := by
  simp only [Content.view, h, Bool.and_false, Bool.false_eq_true, if_false]
  split_ifs <;> rfl

theorem view_eq_of_string (hnumber : c.flags.numeric = false) (hzero : c.flags.zero = false)
    (hflags : d.flags = c.flags) (hdata : d.data = c.data) (hsize : d.size = c.size) : d.view = c.view := by
  rw [Flags.numeric, Bool.or_eq_false_iff] at hnumber
  simp only [Content.view, Content.bytes, hflags, hnumber, hzero, hdata, hsize, Bool.and_false, Bool.false_and,
    Bool.false_eq_true, if_false]

theorem Veils.view (h : c.Veils d) (hc : c.Comparand) (hz : d.flags.zero = false) :
    (d.withFlags { c.flags with zero := false }).view = c.view.expanded := by
  cases hzero : c.flags.zero with
  | false =>
    have hsame : { c.flags with zero := false } = c.flags := by rw [← hzero]
    rw [hsame, expanded_view hzero]
    obtain ⟨hnumber, htext, -⟩ | ⟨hnumber, htext⟩ := hc.cases
    · rw [Flags.textual, Bool.or_eq_false_iff] at htext
      exact view_eq_of_number htext.1 htext.2 rfl (h.number hnumber)
    · obtain ⟨hdata, hsize⟩ := h.string htext hzero
      exact view_eq_of_string hnumber hzero rfl hdata hsize
  | true =>
    obtain rfl | ⟨-, hsize, hbytes, hsome⟩ := h.zeros hzero
    · rw [hzero] at hz
      cases hz
    have hblob := hc.zeros hzero
    obtain ⟨hnone, -⟩ | ⟨hnumber, -⟩ := hc.cases
    · rw [(hc.counted hzero).2] at hnone
      cases hnone
    have hstr : c.flags.str = false := by
      cases hstr : c.flags.str with
      | false => rfl
      | true =>
        rw [hc.text hstr] at hzero
        cases hzero
    have hwhole : (c.flags.textual && c.size != 0 && c.data.isNone) = false := by
      cases hdata : c.data with
      | some b => rw [Option.isNone_some, Bool.and_false]
      | none =>
        have hlen := hc.whole hzero
        rw [Content.bytes, hdata] at hlen
        rw [← hlen]
        simp
    rw [Flags.numeric, Bool.or_eq_false_iff] at hnumber
    have hbytes' : (d.withFlags { c.flags with zero := false }).bytes = c.bytes ++ List.replicate c.zeros.toNat 0 := hbytes
    simp only [Content.view, hwhole, hbytes']
    simp only [withFlags, hnumber, hblob, hstr, hzero, Option.isNone_eq_false_iff.mpr hsome, Bool.and_false, Bool.false_and,
      Bool.false_eq_true, if_false, Bool.and_self, if_true]
    split_ifs <;> rfl

end Cell

def Instruction.Compared (k : Instruction) (s : Nat) : Prop := s = k.p1.toNat ∨ s = k.p3.toNat

instance (k : Instruction) (s : Nat) : Decidable (k.Compared s) :=
  inferInstanceAs (Decidable (s = k.p1.toNat ∨ s = k.p3.toNat))

namespace Bank

variable {b b₁ b₂ : Bank} {r s : Nat} {c : Cell} {o : CompareOptions} {S W : Nat → Prop}

/-- The string of a register does not lie in the buffers of the others of `W`, which may be written to, and
would not if it were put into its own buffer or a new one. -/
structure Sheltered (b : Bank) (W : Nat → Prop) (r : Nat) : Prop where
  apart : ∀ s, W s → s ≠ r → (b.cellAt s).Apart (b.cellAt r)
  owns : ∀ s n, W s → s ≠ r → (b.cellAt r).own = some n → (b.cellAt s).own ≠ some n
  placed : ∀ d, (b.cellAt r).data = some d → d.name < b.fresh
  named : ∀ s n, (b.cellAt s).own = some n → n < b.fresh

namespace Sheltered

theorem kept (h : b.Sheltered W r) (hs : s < b.cells.size) (hb : b.Became s c b₁) (hc : (b.cellAt s).Retains c) :
    b₁.Sheltered W r ∧ (s ≠ r → b₁.cellAt r = b.cellAt r) := by
  have hother (j : Nat) (hj : s ≠ j) : b₁.cellAt j = b.cellAt j := by
    rw [hb.cellAt, put_of_string ⟨hc.data, hc.term⟩, cellAt_withCell hs, if_neg hj]
  have howns (j : Nat) : (b₁.cellAt j).own = (b.cellAt j).own := by
    by_cases hj : s = j
    · rw [← hj, hb.self hs, hc.own]
    · rw [hother j hj]
  have hstring : (b₁.cellAt r).data = (b.cellAt r).data := by
    by_cases hj : s = r
    · rw [← hj, hb.self hs, hc.data]
    · rw [hother r hj]
  refine ⟨⟨fun w hw hne d hd => ?_, fun w n hw hne hn => ?_, fun d hd => ?_, fun w n hn => ?_⟩, hother r⟩
  · rw [howns]
    exact h.apart w hw hne d (hstring ▸ hd)
  · rw [howns] at hn ⊢
    exact h.owns w n hw hne hn
  · exact (h.placed d (hstring ▸ hd)).trans_le hb.fresh_le
  · exact (h.named w n (howns w ▸ hn)).trans_le hb.fresh_le

/-- A register of `W` has its string put into its own buffer, which may be a new one. -/
theorem rebuilt (h : b.Sheltered W r) (hs : s < b.cells.size) (hW : W s) (hb : b.Became s c b₁) {own : Nat}
    (hown : c.own = some own) (howner : (b.cellAt s).own = some own ∨ own = b.fresh)
    (hdata : ∀ d, c.data = some d → d.name = own) :
    b₁.Sheltered W r ∧ (s ≠ r → b₁.cellAt r = b.cellAt r) := by
  have hself := hb.self hs
  have hfresh : own < b₁.fresh := by
    obtain ⟨hfresh, hsame⟩ | hfresh := hb.fresh
    · exact hfresh ▸ h.named s own (hsame ▸ hown)
    · obtain hmine | rfl := howner
      · exact (h.named s own hmine).trans_le hb.fresh_le
      · omega
  have hnamed (w n : Nat) (hn : (b₁.cellAt w).own = some n) : n < b₁.fresh := by
    by_cases hw : w = s
    · rw [hw, hself, hown, Option.some.injEq] at hn
      exact hn ▸ hfresh
    · rw [hb.own hs hw] at hn
      exact (h.named w n hn).trans_le hb.fresh_le
  by_cases hr : s = r
  · subst hr
    refine ⟨⟨fun w hw hne d hd => ?_, fun w n hw hne hn => ?_, fun d hd => ?_, hnamed⟩, absurd rfl⟩
    -- no other register of `W` owns the buffer
    all_goals rw [hself] at *
    · rw [hb.own hs hne, hdata d hd]
      obtain hmine | rfl := howner
      · exact h.owns w own hw hne hmine
      · exact fun hw' => absurd (h.named w _ hw') (lt_irrefl _)
    · rw [hb.own hs hne]
      rw [hown, Option.some.injEq] at hn
      subst hn
      obtain hmine | rfl := howner
      · exact h.owns w own hw hne hmine
      · exact fun hw' => absurd (h.named w _ hw') (lt_irrefl _)
    · exact hdata d hd ▸ hfresh
  · have hother : b₁.cellAt r = b.cellAt r := by
      rw [hb.cellAt, cellAt_put_apart hs hr (h.apart s hW hr)]
    refine ⟨⟨fun w hw hne d hd => ?_, fun w n hw hne hn => ?_, fun d hd => ?_, hnamed⟩, fun _ => hother⟩
    · rw [hother] at hd
      by_cases hws : w = s
      · rw [hws, hself, hown, Ne, Option.some.injEq]
        obtain hmine | rfl := howner
        · exact fun heq => h.apart s hW hr d hd (heq ▸ hmine)
        · exact fun heq => absurd (h.placed d hd) (heq ▸ lt_irrefl _)
      · rw [hb.own hs hws]
        exact h.apart w hw hne d hd
    · rw [hother] at hn
      by_cases hws : w = s
      · rw [hws, hself, hown, Ne, Option.some.injEq]
        obtain hmine | rfl := howner
        · exact fun heq => h.owns s n hW hr hn (heq ▸ hmine)
        · exact fun heq => absurd (h.named r n hn) (heq ▸ lt_irrefl _)
      · rw [hb.own hs hws]
        exact h.owns w n hw hne hn
    · exact (h.placed d (hother ▸ hd)).trans_le hb.fresh_le

theorem prepared (h : b.Sheltered W r) (hs : s < b.cells.size) {f : Flags}
    (hW : (o.isText && f.onlyNumber || f.zero) = true → W s)
    (hb : b.Became s ((b.cellAt s).prepared o f b.fresh) b₁) :
    b₁.Sheltered W r ∧ (s ≠ r → b₁.cellAt r = b.cellAt r) := by
  rw [Cell.prepared] at hb
  split at hb
  · exact h.kept hs hb (b.cellAt s).retains_readNumber.1
  · split at hb
    · rename_i hnumber
      obtain ⟨own, text, hown, howner, hdata, -⟩ := (b.cellAt s).stringify_owner b.fresh
      refine h.rebuilt hs (hW (by rw [hnumber, Bool.true_or])) hb hown howner fun d hd => ?_
      rw [hdata] at hd
      cases hd
      rfl
    · split at hb
      · rename_i hz
        cases hzero : (b.cellAt s).flags.zero with
        | false =>
          rw [Cell.expandBlob_of_not_zero hzero] at hb
          exact h.kept hs hb (.refl _)
        | true =>
          obtain ⟨own, hown, howner, hdata⟩ := Cell.expandBlob_of_zero hzero b.fresh
          refine h.rebuilt hs (hW (by rw [hz, Bool.or_true])) hb hown howner fun d hd => ?_
          rw [hdata] at hd
          cases hd
          rfl
      · exact h.kept hs hb (.refl _)

end Sheltered

theorem Became.marks {f : Flags} (h : b.Became s ((b.cellAt s).prepared o f b.fresh) b₁) (hs : s < b.cells.size)
    (r : Nat) : (b₁.cellAt r).flags.null = (b.cellAt r).flags.null ∧
      ((b.cellAt r).flags.zero = false → (b₁.cellAt r).flags.zero = false) := by
  rw [h.cellAt, cellAt_put hs]
  split
  · rename_i hsr
    subst hsr
    exact Cell.flags_prepared ..
  · split
    · rw [Cell.flags_seeing]
      exact ⟨rfl, id⟩
    · exact ⟨rfl, id⟩

/-- The operands `S` have been prepared, each one by the marks that it had and any number of times. -/
inductive Worked (b : Bank) (o : CompareOptions) (S : Nat → Prop) : Bank → Prop
  | start {b₁ : Bank} (cells : b₁.cells = b.cells) (reach : b₁.reach = b.reach) (fresh : b₁.fresh = b.fresh) :
    Worked b o S b₁
  | step {b₁ b₂ : Bank} {s : Nat} (before : Worked b o S b₁) (operand : S s)
    (became : b₁.Became s ((b₁.cellAt s).prepared o (b.cellAt s).flags b₁.fresh) b₂) : Worked b o S b₂

namespace Worked

theorem knowing (h : b.Worked o S b₁) (t : Sheet) (l : Ledger) : b.Worked o S (b₁.knowing t l) := by
  cases h with
  | start cells reach fresh => exact .start cells reach fresh
  | step before operand became => exact .step before operand ⟨became.cells, became.reach, became.fresh⟩

theorem reach_eq (h : b.Worked o S b₁) : b₁.reach = b.reach := by
  induction h with
  | start _ reach _ => exact reach
  | step _ _ became ih => exact became.reach.trans ih

theorem size_eq (h : b.Worked o S b₁) : b₁.cells.size = b.cells.size := by
  induction h with
  | start cells _ _ => rw [cells]
  | step _ _ became ih => exact became.size.trans ih

theorem marks (h : b.Worked o S b₁) (hS : ∀ s, S s → s < b.cells.size) (r : Nat) :
    (b₁.cellAt r).flags.null = (b.cellAt r).flags.null ∧
      ((b.cellAt r).flags.zero = false → (b₁.cellAt r).flags.zero = false) := by
  induction h with
  | start cells _ _ =>
    rw [cellAt, cellAt, cells]
    exact ⟨rfl, id⟩
  | @step b₁ b₂ s before operand became ih =>
    obtain ⟨hnull, hzero⟩ := became.marks (before.size_eq ▸ hS s operand) r
    exact ⟨hnull.trans ih.1, hzero ∘ ih.2⟩

theorem sheltered (h : b.Worked o S b₁) (hS : ∀ s, S s → s < b.cells.size ∧ (b.cellAt s).Comparand)
    (hW : ∀ s, S s → (b.cellAt s).Stirred o = true → W s) (hr : b.Sheltered W r) :
    b₁.Sheltered W r ∧ (¬ S r → b₁.cellAt r = b.cellAt r) ∧ (S r → (b.cellAt r).Veils (b₁.cellAt r)) := by
  induction h with
  | @start b₁ cells _ fresh =>
    have hcell (j : Nat) : b₁.cellAt j = b.cellAt j := by rw [cellAt, cellAt, cells]
    refine ⟨⟨?_, ?_, ?_, ?_⟩, fun _ => hcell r, fun _ => by rw [hcell]; exact .refl _⟩
    all_goals simp only [hcell, fresh]
    · exact hr.apart
    · exact hr.owns
    · exact hr.placed
    · exact hr.named
  | @step b₁ b₂ s before operand became ih =>
    obtain ⟨hshelter, hother, hself⟩ := ih
    have hs : s < b₁.cells.size := before.size_eq ▸ (hS s operand).1
    obtain ⟨hshelter', hkept⟩ := hshelter.prepared hs (hW s operand) became
    refine ⟨hshelter', fun hSr => ?_, fun hSr => ?_⟩
    · rw [hkept fun hsr => hSr (hsr ▸ operand), hother hSr]
    · by_cases hsr : s = r
      · subst hsr
        rw [became.self hs]
        exact (hself hSr).prepared (hS s hSr).2 o _
      · rw [hkept hsr]
        exact hself hSr

end Worked

theorem Obeys.became (h : b.Obeys Fact.True) (hr : r < b.reach) (rule : Nat → Cell → Cell) :
    ∃ b₁, direct r rule b = .ok () b₁ ∧ b.Became r (rule b.fresh (b.cellAt r)) b₁ ∧ b₁.Obeys Fact.True := by
  obtain ⟨t, l, hrun, hobeys⟩ := h.direct_run Fact.law_true hr rule
  exact ⟨_, hrun, ⟨cells_put_congr (a := b.renewed) (d := b) rfl r _, reach_put _ _ _, .inr (fresh_put _ _ _)⟩, hobeys⟩

namespace Worked

variable (hS : ∀ s, S s → s < b.reach ∧ (b.cellAt s).Comparand)

include hS

theorem coerce_run (h : b.Worked o S b₁) (hb : b₁.Obeys Fact.True) (hr : S r) :
    ∃ g changed b₂, Tracked.coerce o r (b.cellAt r).flags b₁ = .ok (g, changed) b₂ ∧ b₂.Obeys Fact.True ∧
      b.Worked o S b₂ ∧ g.zero = (b.cellAt r).flags.zero ∧ (changed = false → ∀ j, b₂.cellAt j = b₁.cellAt j) := by
  have hlt : r < b₁.reach := h.reach_eq ▸ (hS r hr).1
  have hsize (s : Nat) (hs : S s) : s < b.cells.size :=
    h.size_eq ▸ hb.lt_size (h.reach_eq ▸ (hS s hs).1)
  have hrule (rule : Nat → Cell → Cell) (hzero : (b.cellAt r).flags.zero = false)
      (hprepared : ∀ n c, rule n c = c.prepared o (b.cellAt r).flags n) :
      ∃ g b₂, (do direct r rule; return (← flags r, true)) b₁ = .ok (g, true) b₂ ∧ b₂.Obeys Fact.True ∧
        b.Worked o S b₂ ∧ g.zero = (b.cellAt r).flags.zero := by
    obtain ⟨b₂, hrun, hbecame, hb₂⟩ := hb.became hlt rule
    rw [hprepared] at hbecame
    have h₂ := h.step hr hbecame
    obtain ⟨t, l, hlook, hb₃⟩ := hb₂.flags_run Fact.law_true (h₂.reach_eq ▸ (hS r hr).1)
    exact ⟨_, _, (bind_of_ok hrun).trans (bind_of_ok hlook), hb₃, h₂.knowing t l,
      ((h₂.marks hsize r).2 hzero).trans hzero.symm⟩
  rw [Tracked.coerce]
  by_cases htext : (o.isNumeric && (b.cellAt r).flags.onlyText) = true
  · have hzero : (b.cellAt r).flags.zero = false := by
      rw [Bool.and_eq_true, Flags.onlyText, Bool.and_eq_true, Bool.and_eq_true] at htext
      exact (hS r hr).2.text htext.2.1.1
    obtain ⟨g, b₂, hrun, hb₂, h₂, hg⟩ := hrule (fun _ => Cell.applyNumericAffinity false) hzero fun n c => by
      rw [Cell.prepared, if_pos htext]
    rw [if_pos htext]
    exact ⟨g, true, b₂, hrun, hb₂, h₂, hg, Bool.noConfusion⟩
  · by_cases hnumber : (o.isText && (b.cellAt r).flags.onlyNumber) = true
    · have hzero : (b.cellAt r).flags.zero = false := by
        rw [Bool.and_eq_true, Flags.onlyNumber, Bool.and_eq_true] at hnumber
        exact ((hS r hr).2.toOperand.number hnumber.2.2).2.2.1
      obtain ⟨g, b₂, hrun, hb₂, h₂, hg⟩ := hrule (fun n => Cell.stringify n true) hzero fun n c => by
        rw [Cell.prepared, if_neg htext, if_pos hnumber]
      rw [if_neg htext, if_pos hnumber]
      exact ⟨g, true, b₂, hrun, hb₂, h₂, hg, Bool.noConfusion⟩
    · rw [if_neg htext, if_neg hnumber]
      exact ⟨_, false, b₁, rfl, hb, h, rfl, fun _ _ => rfl⟩

theorem widen_run (h : b.Worked o S b₁) (hb : b₁.Obeys Fact.True) (hr : S r) {g : Flags}
    (hg : g.zero = (b.cellAt r).flags.zero) :
    ∃ wide b₂, Tracked.widen r g (b.cellAt r).flags b₁ = .ok ({ (b.cellAt r).flags with zero := false }, wide) b₂ ∧
      b₂.Obeys Fact.True ∧ b.Worked o S b₂ ∧ (b₂.cellAt r).flags.zero = false ∧
      (∀ j, (b₁.cellAt j).flags.zero = false → (b₂.cellAt j).flags.zero = false) ∧
      (wide = false → ∀ j, b₂.cellAt j = b₁.cellAt j) := by
  have hlt : r < b₁.reach := h.reach_eq ▸ (hS r hr).1
  have hsize (s : Nat) (hs : S s) : s < b.cells.size :=
    h.size_eq ▸ hb.lt_size (h.reach_eq ▸ (hS s hs).1)
  rw [Tracked.widen, hg]
  cases hzero : (b.cellAt r).flags.zero with
  | false =>
    have hsame : { (b.cellAt r).flags with zero := false } = (b.cellAt r).flags := by rw [← hzero]
    rw [hsame]
    exact ⟨false, b₁, rfl, hb, h, (h.marks hsize r).2 hzero, fun _ => id, fun _ _ => rfl⟩
  | true =>
    have hprepared (n : Nat) (c : Cell) : c.expandBlob n = c.prepared o (b.cellAt r).flags n := by
      obtain ⟨-, -, hnot⟩ | ⟨hnumber, -⟩ := (hS r hr).2.cases
      · rw [hnot] at hzero
        cases hzero
      have hstr : (b.cellAt r).flags.str = false := by
        cases hstr : (b.cellAt r).flags.str with
        | false => rfl
        | true =>
          rw [(hS r hr).2.text hstr] at hzero
          cases hzero
      rw [Cell.prepared, Flags.onlyText, Flags.onlyNumber, hstr, hnumber, hzero]
      simp
    obtain ⟨b₂, hrun, hbecame, hb₂⟩ := hb.became hlt Cell.expandBlob
    have hdone : (b₂.cellAt r).flags.zero = false := by
      rw [hbecame.self (hb.lt_size hlt)]
      exact Cell.zero_expandBlob _ _
    rw [hprepared] at hbecame
    have h₂ := h.step hr hbecame
    obtain ⟨t, l, hlook, hb₃⟩ := hb₂.flags_run Fact.law_true (h₂.reach_eq ▸ (hS r hr).1)
    refine ⟨true, b₂.knowing t l, ?_, hb₃, h₂.knowing t l, hdone, fun j => (hbecame.marks (hb.lt_size hlt) j).2, Bool.noConfusion⟩
    rw [if_pos rfl, bind_of_ok hrun, bind_of_ok (discard_of_ok hlook)]
    rfl

end Worked

variable {k : Instruction}

/-- Two registers with values are compared, and a truth value is not stored over them. -/
structure Weighs (b : Bank) (k : Instruction) : Prop where
  left : 0 ≤ k.p1 ∧ k.p1.toNat < b.reach ∧ (b.cellAt k.p1.toNat).Comparand
  right : 0 ≤ k.p3 ∧ k.p3.toNat < b.reach ∧ (b.cellAt k.p3.toNat).Comparand
  out : (CompareOptions.ofBits k.p5).store = true → ∀ r, wrapIndex? b.reach k.p2 = some r → ¬ k.Compared r

/-- A truth value is stored or jumped on, and then the marks of the operands are written back if `p`. -/
def conclude (k : Instruction) (p : Bool) (f g : Flags) (holds : Bool) : BankM Flow := do
  let flow ← Tracked.decide (.ofBits k.p5) k holds
  if p then
    setFlags k.p1.toNat f
    setFlags k.p3.toNat g
  return flow

/-- An order of the operands has been found, which is all that the relation is needed for. -/
structure Judged (b : Bank) (k : Instruction) (order : Ordering) (p : Bool) (b₁ : Bank) : Prop where
  known : b₁.Obeys Fact.Honest
  worked : b.Worked (.ofBits k.p5) k.Compared b₁
  done : ∀ s, k.Compared s → (b₁.cellAt s).flags.zero = false
  same : p = false → ∀ j, b₁.cellAt j = b.cellAt j
  run : ∀ rel, Tracked.comparison rel k b = conclude k p { (b.cellAt k.p1.toNat).flags with zero := false }
    { (b.cellAt k.p3.toNat).flags with zero := false } (rel.holds order) b₁

namespace Weighs

theorem operand (h : b.Weighs k) {s : Nat} (hs : k.Compared s) : s < b.reach ∧ (b.cellAt s).Comparand := by
  obtain rfl | rfl := hs
  · exact h.left.2
  · exact h.right.2

theorem judge_numbers (h : b.Weighs k) (hb : b.Obeys Fact.True)
    (hnumbers : ((CompareOptions.ofBits k.p5).isNumeric &&
      ((b.cellAt k.p1.toNat).flags.numeric || (b.cellAt k.p3.toNat).flags.numeric)) = true) :
    (∃ e, ∀ rel, ∃ b', Tracked.comparison rel k b = .error e b') ∨ ∃ order p b₁, b.Judged k order p b₁ := by
  obtain ⟨t, l, hb₁, hrun⟩ := hb.operands_run ⟨h.left.1, h.left.2.1⟩ ⟨h.right.1, h.right.2.1⟩
  have hstart (rel : Relation) : Tracked.comparison rel k b = (
      if (b.cellAt k.p1.toNat).flags.int && (b.cellAt k.p3.toNat).flags.int then do
        let n3 ← int k.p3.toNat
        let n1 ← int k.p1.toNat
        Tracked.decide (.ofBits k.p5) k (rel.holds (Ord.compare n3 n1))
      else do
        let n1 ← Tracked.asReal k.p1.toNat (b.cellAt k.p1.toNat).flags
        let n3 ← Tracked.asReal k.p3.toNat (b.cellAt k.p3.toNat).flags
        Tracked.decide (.ofBits k.p5) k (rel.holdsNumber n3 n1)) (b.knowing t l) := by
    rw [show Tracked.comparison rel k b = _ from hrun _]
    dsimp only
    rw [if_neg (by rw [h.left.2.2.value, h.right.2.2.value]; decide), if_pos hnumbers]
  cases h1 : (b.cellAt k.p1.toNat).flags.numeric with
  | false =>
    refine .inl ⟨.assertion "", fun rel => ⟨b.knowing t l, ?_⟩⟩
    rw [hstart, (Bool.or_eq_false_iff.mp h1).1]
    exact bind_of_error (asReal_error h1)
  | true =>
    obtain ⟨a1, hread1, hstands1, hnan1⟩ := asReal_run hb₁ h.left.2.1 h.left.2.2.toOperand h1
    cases h3 : (b.cellAt k.p3.toNat).flags.numeric with
    | false =>
      refine .inl ⟨.assertion "", fun rel => ⟨b.knowing t l, ?_⟩⟩
      rw [hstart, (Bool.or_eq_false_iff.mp h3).1, Bool.and_false]
      exact (bind_of_ok hread1).trans (bind_of_error (asReal_error h3))
    | true =>
      obtain ⟨a3, hread3, hstands3, hnan3⟩ := asReal_run hb₁ h.right.2.1 h.right.2.2.toOperand h3
      have hdone (s : Nat) (hs : k.Compared s) : (b.cellAt s).flags.zero = false := by
        obtain rfl | rfl := hs
        · exact (h.left.2.2.toOperand.number h1).2.2.1
        · exact (h.right.2.2.toOperand.number h3).2.2.1
      have hjudged (order : Ordering) (hrun : ∀ rel, Tracked.comparison rel k b =
          Tracked.decide (.ofBits k.p5) k (rel.holds order) (b.knowing t l)) : b.Judged k order false (b.knowing t l) :=
        ⟨hb₁.mono Fact.Holds.flags, .start rfl rfl rfl, hdone, fun _ _ => rfl, fun rel => by
          rw [hrun, conclude]
          exact (congrFun (bind_pure _) _).symm⟩
      right
      cases hints : (b.cellAt k.p1.toNat).flags.int && (b.cellAt k.p3.toNat).flags.int with
      | true =>
        refine ⟨_, false, _, hjudged (Ord.compare (b.cellAt k.p3.toNat).int (b.cellAt k.p1.toNat).int) fun rel => ?_⟩
        rw [hstart, hints, if_pos rfl, bind_of_ok (hb₁.int_run h.right.2.1), bind_of_ok (hb₁.int_run h.left.2.1)]
        rfl
      | false =>
        refine ⟨_, false, _, hjudged (Ord.compare (b.cellAt k.p3.toNat).rounded.key (b.cellAt k.p1.toNat).rounded.key)
          fun rel => ?_⟩
        rw [hstart, hints, if_neg Bool.false_ne_true]
        refine (bind_of_ok hread1).trans ((bind_of_ok hread3).trans ?_)
        rw [Relation.holdsNumber, hstands3.cmp? hstands1 hnan3 hnan1]
        rfl

theorem judge_others (h : b.Weighs k) (hb : b.Obeys Fact.True)
    (hnumbers : ((CompareOptions.ofBits k.p5).isNumeric &&
      ((b.cellAt k.p1.toNat).flags.numeric || (b.cellAt k.p3.toNat).flags.numeric)) = false) :
    (∃ e, ∀ rel, ∃ b', Tracked.comparison rel k b = .error e b') ∨ ∃ order p b₁, b.Judged k order p b₁ := by
  obtain ⟨t, l, hb₀, hrun⟩ := hb.operands_run ⟨h.left.1, h.left.2.1⟩ ⟨h.right.1, h.right.2.1⟩
  have hS (s : Nat) (hs : k.Compared s) := h.operand hs
  have hw₀ : b.Worked (.ofBits k.p5) k.Compared (b.knowing t l) := .start rfl rfl rfl
  obtain ⟨g1, changed1, b₁, hcoerce1, hb₁, hw₁, hz1, hsame1⟩ := hw₀.coerce_run hS hb₀ (.inl rfl)
  obtain ⟨g3, changed3, b₂, hcoerce3, hb₂, hw₂, hz3, hsame3⟩ := hw₁.coerce_run hS hb₁ (.inr rfl)
  have hstart (rel : Relation) : Tracked.comparison rel k b = (do
      check k.p4.mayCollate
      let back1 ← Tracked.widen k.p1.toNat g1 (b.cellAt k.p1.toNat).flags
      let back3 ← Tracked.widen k.p3.toNat g3 (b.cellAt k.p3.toNat).flags
      let order ← Bank.compare k.p3.toNat k.p1.toNat k.p4.collation?
      let flow ← Tracked.decide (.ofBits k.p5) k (rel.holds order)
      if changed1 || changed3 || back1.2 || back3.2 then
        setFlags k.p1.toNat back1.1
        setFlags k.p3.toNat back3.1
      return flow) b₂ := by
    rw [show Tracked.comparison rel k b = _ from hrun _]
    dsimp only
    rw [if_neg (by rw [h.left.2.2.value, h.right.2.2.value]; decide), if_neg (by rw [hnumbers]; decide),
      bind_of_ok hcoerce1, bind_of_ok hcoerce3]
  cases hcollate : k.p4.mayCollate with
  | false =>
    refine .inl ⟨.assertion "", fun rel => ⟨b₂, ?_⟩⟩
    rw [hstart, hcollate]
    rfl
  | true =>
    obtain ⟨wide1, b₃, hwiden1, hb₃, hw₃, hdone1, -, hsame1'⟩ := hw₂.widen_run hS hb₂ (.inl rfl) hz1
    obtain ⟨wide3, b₄, hwiden3, hb₄, hw₄, hdone3, hkept, hsame3'⟩ := hw₃.widen_run hS hb₃ (.inr rfl) hz3
    have hlt (s : Nat) (hs : k.Compared s) : s < b₄.reach := hw₄.reach_eq ▸ (hS s hs).1
    have hvalue (s : Nat) (hs : k.Compared s) : (b₄.cellAt s).flags.null = false :=
      (hw₄.marks (fun s hs => hb.lt_size (hS s hs).1) s).1.trans (hS s hs).2.value
    obtain ⟨t₅, l₅, hcompare, hb₅⟩ := compare_run hb₄ (hlt _ (.inr rfl)) (hlt _ (.inl rfl)) (hvalue _ (.inr rfl))
      (hvalue _ (.inl rfl)) k.p4.collation?
    refine .inr ⟨Cell.judged k.p4.collation? (b₄.cellAt k.p3.toNat) (b₄.cellAt k.p1.toNat),
      changed1 || changed3 || wide1 || wide3, b₄.knowing t₅ l₅, hb₅.mono Fact.Holds.flags, hw₄.knowing t₅ l₅, ?_,
      fun hp j => ?_, fun rel => ?_⟩
    · rintro s (rfl | rfl)
      · exact hkept _ hdone1
      · exact hdone3
    · simp only [Bool.or_eq_false_iff] at hp
      rw [cellAt_knowing, hsame3' hp.2, hsame1' hp.1.2, hsame3 hp.1.1.2, hsame1 hp.1.1.1, cellAt_knowing]
    · rw [hstart, hcollate]
      show (do
        let back1 ← Tracked.widen k.p1.toNat g1 (b.cellAt k.p1.toNat).flags
        _) b₂ = _
      rw [bind_of_ok hwiden1, bind_of_ok hwiden3, bind_of_ok hcompare]
      rfl

theorem judge (h : b.Weighs k) (hb : b.Obeys Fact.True) :
    (∃ e, ∀ rel, ∃ b', Tracked.comparison rel k b = .error e b') ∨ ∃ order p b₁, b.Judged k order p b₁ := by
  cases hnumbers : (CompareOptions.ofBits k.p5).isNumeric &&
      ((b.cellAt k.p1.toNat).flags.numeric || (b.cellAt k.p3.toNat).flags.numeric) with
  | true => exact h.judge_numbers hb hnumbers
  | false => exact h.judge_others hb hnumbers

end Weighs

theorem register_wrapped (b : Bank) (i : Int) : register i b = match wrapIndex? b.reach i with
    | some r => .ok r b
    | none => .error .unknownRegister b := by
  rw [register, bind_of_ok get_run]
  cases wrapIndex? b.reach i <;> rfl

theorem Obeys.decide_run (h : b.Obeys Fact.Honest) (k : Instruction) :
    (∀ holds, Tracked.decide o k holds b = .error .unknownRegister b) ∨
    ∀ holds, ∃ flow b₁, Tracked.decide o k holds b = .ok flow b₁ ∧ b₁.Obeys Fact.Honest ∧ b₁.reach = b.reach ∧
      (if o.store then flow = .next ∧ ∃ r, wrapIndex? b.reach k.p2 = some r ∧ (b₁.cellAt r).IsInt (Bool.toNat holds)
        else flow = .jumpIf holds k.p2) ∧
      ∀ r, (o.store = true → wrapIndex? b.reach k.p2 ≠ some r) → b₁.cellAt r = b.cellAt r := by
  simp only [Tracked.decide]
  cases o.store with
  | false => exact .inr fun holds => ⟨_, b, rfl, h, rfl, rfl, fun _ _ => rfl⟩
  | true =>
    simp only [if_true, true_imp_iff]
    have hregister := register_wrapped b k.p2
    cases hr : wrapIndex? b.reach k.p2 with
    | none =>
      rw [hr] at hregister
      exact .inl fun holds => bind_of_error hregister
    | some r =>
      rw [hr] at hregister
      have hlt : r < b.reach := wrapIndex?_lt hr
      refine .inr fun holds => ?_
      have hfits : fitsWord (holds.toNat : Int) = true := by cases holds <;> rfl
      obtain ⟨t₁, l₁, hretype, h₁⟩ := h.retype_run hlt .onlyInt
      obtain ⟨t₂, l₂, hset, h₂⟩ := h₁.setInt_run Fact.law_honest hlt hfits fun _ hf => hf
      rw [cellAt_knowing, cellAt_withCell_self (h.lt_size hlt), withCell_knowing, knowing_knowing, withCell_withCell]
        at hset h₂
      refine ⟨.next, _, ?_, h₂, rfl, ⟨rfl, r, rfl, ?_⟩, fun j hj => ?_⟩
      · rw [bind_of_ok hregister, bind_of_ok hretype, bind_of_ok hset]
        rfl
      · rw [cellAt_knowing, cellAt_withCell_self (h.lt_size hlt)]
        exact ⟨rfl, rfl, rfl, wordToInt_intToWord_of_fits hfits⟩
      · rw [cellAt_knowing, cellAt_withCell (h.lt_size hlt), if_neg fun hrj => hj (congrArg some hrj)]

theorem Obeys.conclude_run (h : b.Obeys Fact.Honest) (h1 : k.p1.toNat < b.reach) (h3 : k.p3.toNat < b.reach)
    (hout : (CompareOptions.ofBits k.p5).store = true → ∀ r, wrapIndex? b.reach k.p2 = some r → ¬ k.Compared r)
    (p : Bool) (f g : Flags) :
    (∀ holds, ∃ b₁, conclude k p f g holds b = .error .unknownRegister b₁) ∨
    ∀ holds, ∃ flow b₁, conclude k p f g holds b = .ok flow b₁ ∧
      (if (CompareOptions.ofBits k.p5).store then flow = .next ∧
          ∃ r, wrapIndex? b.reach k.p2 = some r ∧ (b₁.cellAt r).IsInt (Bool.toNat holds)
        else flow = .jumpIf holds k.p2) ∧
      ∀ r, ((CompareOptions.ofBits k.p5).store = true → wrapIndex? b.reach k.p2 ≠ some r) →
        b₁.cellAt r = if p = true ∧ r = k.p3.toNat then (b.cellAt r).withFlags g
          else if p = true ∧ r = k.p1.toNat then (b.cellAt r).withFlags f else b.cellAt r := by
  obtain hfail | hdecide := h.decide_run (o := .ofBits k.p5) k
  · exact .inl fun holds => ⟨b, bind_of_error (hfail holds)⟩
  refine .inr fun holds => ?_
  obtain ⟨flow, b₁, hrun, h₁, hreach, hflow, hcells⟩ := hdecide holds
  cases p with
  | false =>
    refine ⟨flow, b₁, (bind_of_ok hrun).trans rfl, hflow, fun r hr => ?_⟩
    simp only [Bool.false_eq_true, false_and, if_false]
    exact hcells r hr
  | true =>
    obtain ⟨t₂, l₂, hset₁, h₂⟩ := h₁.setFlags_run Fact.law_honest (hreach.symm ▸ h1) f fun f _ => f.honest_noteFlags _ _
    obtain ⟨t₃, l₃, hset₃, -⟩ := h₂.setFlags_run Fact.law_honest (show k.p3.toNat < b₁.reach from hreach.symm ▸ h3) g
      fun f _ => f.honest_noteFlags _ _
    have hlt1 := h₁.lt_size (hreach.symm ▸ h1)
    have hlt3 := h₁.lt_size (hreach.symm ▸ h3)
    have hend (r : Nat) : (((b₁.withCell k.p1.toNat ((b₁.cellAt k.p1.toNat).withFlags f)).knowing t₂ l₂).withCell k.p3.toNat
        ((((b₁.withCell k.p1.toNat ((b₁.cellAt k.p1.toNat).withFlags f)).knowing t₂ l₂).cellAt k.p3.toNat).withFlags g)).cellAt r =
        if r = k.p3.toNat then (b₁.cellAt r).withFlags g
        else if r = k.p1.toNat then (b₁.cellAt r).withFlags f else b₁.cellAt r := by
      rw [withCell_knowing, cellAt_knowing, cellAt_withCell (by rwa [size_withCell]), cellAt_knowing,
        cellAt_withCell hlt1, cellAt_withCell hlt1]
      split
      · rename_i hr
        subst hr
        rw [if_pos rfl]
        split
        · rename_i h13
          rw [h13]
          rfl
        · rfl
      · rename_i hr
        rw [if_neg (Ne.symm hr)]
        split
        · rename_i h1r
          rw [if_pos h1r.symm, h1r]
        · rename_i h1r
          rw [if_neg (Ne.symm h1r)]
    refine ⟨flow, _, (bind_of_ok hrun).trans ((bind_of_ok hset₁).trans (bind_of_ok hset₃)), ?_, fun r hr => ?_⟩
    · split
      · rename_i hstore
        rw [if_pos hstore] at hflow
        obtain ⟨hnext, r, hr, hint⟩ := hflow
        refine ⟨hnext, r, hr, ?_⟩
        rw [cellAt_knowing, hend, if_neg fun h3r => hout hstore r hr (.inr h3r), if_neg fun h1r => hout hstore r hr (.inl h1r)]
        exact hint
      · rename_i hstore
        rwa [if_neg hstore] at hflow
    · simp only [true_and]
      rw [cellAt_knowing, hend, hcells r hr]

def Unshared (b : Bank) : Prop := ∀ i j n, (b.cellAt i).own = some n → (b.cellAt j).own = some n → i = j

/-- A number with the buffer of a text that another register refers to, the number as a text, and three zeros. -/
def lentBuffer : Bank :=
  ofCells #[.null, { Cell.ofInt 5 with own := some 0, room := 32 },
    { flags := { str := true, term := true, ephem := true }, size := 2, data := some ⟨0, [97, 98]⟩ },
    .ofBytes .onlyStr 1 [53], .ofZeros 3] true true 2

theorem named_lentBuffer : lentBuffer.Named := by
  intro i
  rcases i with _ | _ | _ | _ | _ | i <;> refine ⟨fun n hown => ?_, fun d hdata => ?_⟩ <;>
    first | (cases hown; decide) | (cases hdata; decide) | cases hown | cases hdata

theorem unshared_lentBuffer : lentBuffer.Unshared := by
  have howner (i n : Nat) (h : (lentBuffer.cellAt i).own = some n) : i = 2 * n + 1 := by
    rcases i with _ | _ | _ | _ | _ | i <;> first | (cases h; rfl) | cases h
  intro i j n hi hj
  rw [howner i n hi, howner j n hj]

theorem comparand_lentBuffer : ∀ i ∈ [1, 3, 4], (lentBuffer.cellAt i).Comparand := by
  intro i hi
  simp only [List.mem_cons, List.not_mem_nil, or_false] at hi
  obtain rfl | rfl | rfl := hi <;> exact ⟨⟨by decide, by decide, by decide⟩, by decide, by decide⟩

end Bank

end QueryMachine
