import Mathlib
import QueryMachine.Proofs.Agreement
import QueryMachine.Proofs.Values

/-!
Giving a register an affinity. The tracked rule does what the direct one does, with two exceptions under
the numeric affinities: it leaves a double alone that is an integer, and it takes the payload of a register
without a value or with a blob for a double, which may turn the register into an integer or be refused.
-/

namespace QueryMachine

namespace Fact

/-- The marks that are known are true, and no integer is known. -/
def Intless (f : Fact) (c : Cell) : Prop := f.Honest c ∧ f.int? = none

theorem law_intless : Law Intless := law_honest.known (Q := fun o _ => o = none) rfl

end Fact

namespace Cell

def asInt (c : Cell) (n : Int) : Cell :=
  (c.withPayload (intToWord n)).withFlags (c.flags.retype .onlyInt)

/-- What becomes of a payload that is taken for a double. -/
def wholeOrSelf (c : Cell) : Cell := (c.real.whole?.map c.asInt).getD c

theorem string_wholeOrSelf (c : Cell) :
    c.wholeOrSelf.data = c.data ∧ c.wholeOrSelf.flags.term = c.flags.term ∧ c.wholeOrSelf.own = c.own := by
  rw [wholeOrSelf]
  cases c.real.whole? with
  | none => exact ⟨rfl, rfl, rfl⟩
  | some n => exact ⟨rfl, Bool.or_false _, rfl⟩

theorem beq_ofInt_wholePart {x : Double} (hx : x.isFinite = true) (h : fitsWord (wholePart x.value) = true) :
    (Double.ofInt (wholePart x.value)).beq x = true ↔ x.value = wholePart x.value := by
  obtain ⟨hvalue, hnan⟩ := Double.value_ofInt_wholePart h
  rw [Double.beq, hnan, Double.isNaN_of_isFinite hx, Bool.not_false, Bool.true_and, Bool.true_and, decide_eq_true_eq,
    Double.key_eq_iff, hvalue, eq_comm]

theorem integerAffinity_eq (c : Cell) : c.integerAffinity = c.wholeOrSelf := by
  rw [wholeOrSelf, integerAffinity]
  cases hwhole : c.real.whole? with
  | some n =>
    obtain ⟨hx, hn, hlow, hhigh⟩ := Double.whole?_eq_some.mp hwhole
    have hpart : wholePart c.real.value = n := by rw [hn, wholePart_intCast]
    have hfits : fitsWord (wholePart c.real.value) = true := hpart.symm ▸ Double.fitsWord_of_inside hlow hhigh
    rw [Double.toInt64Clamped_eq hx hfits, (beq_ofInt_wholePart hx hfits).mpr (by rw [hpart, hn]), hpart,
      decide_eq_true hlow, decide_eq_true hhigh]
    rfl
  | none =>
    refine if_neg fun hcond => ?_
    simp only [Bool.and_eq_true, decide_eq_true_eq] at hcond
    obtain ⟨⟨hbeq, hlow⟩, hhigh⟩ := hcond
    by_cases hfits : c.real.isFinite = true ∧ fitsWord (wholePart c.real.value) = true
    · rw [Double.toInt64Clamped_eq hfits.1 hfits.2] at hbeq hlow hhigh
      have hsome := Double.whole?_eq_some.mpr ⟨hfits.1, (beq_ofInt_wholePart hfits.1 hfits.2).mp hbeq, hlow, hhigh⟩
      rw [hwhole] at hsome
      cases hsome
    · -- what does not fit is not strictly inside a word
      have hend : c.real.toInt64Clamped = minWord ∨ c.real.toInt64Clamped = maxWord :=
        Double.toInt64Clamped_outer fun hx => by simpa [hx] using hfits
      omega

end Cell

theorem Number.Stands.isSome_whole? {a : Number} {x : Double} (h : a.Stands x) (hx : x.isFinite = true) :
    (a.eq (.real (.ofInt (wholePart x.value))) && decide (wholePart x.value < maxWord) &&
      decide (minWord < wholePart x.value)) = x.whole?.isSome := by
  have hnan := Double.isNaN_of_isFinite hx
  rw [Bool.eq_iff_iff, Option.isSome_iff_exists]
  simp only [Bool.and_eq_true, decide_eq_true_eq]
  constructor
  · rintro ⟨⟨heq, hhigh⟩, hlow⟩
    obtain ⟨hvalue, hnan'⟩ := Double.value_ofInt_wholePart (Double.fitsWord_of_inside hlow hhigh)
    rw [Number.eq, h.cmp? (stands_real _) hnan hnan', beq_iff_eq, Option.some.injEq, compare_eq_iff_eq,
      Double.key_eq_iff, hvalue] at heq
    exact ⟨_, Double.whole?_eq_some.mpr ⟨hx, heq, hlow, hhigh⟩⟩
  · rintro ⟨n, hn⟩
    obtain ⟨-, hvalue, hlow, hhigh⟩ := Double.whole?_eq_some.mp hn
    have hpart : wholePart x.value = n := by rw [hvalue, wholePart_intCast]
    obtain ⟨hvalue', hnan'⟩ := Double.value_ofInt_wholePart (hpart.symm ▸ Double.fitsWord_of_inside hlow hhigh)
    refine ⟨⟨?_, hpart.symm ▸ hhigh⟩, hpart.symm ▸ hlow⟩
    rw [Number.eq, h.cmp? (stands_real _) hnan hnan', beq_iff_eq, Option.some.injEq, compare_eq_iff_eq,
      Double.key_eq_iff, hvalue', hpart, hvalue]

namespace Bank

variable {P : Nat → Fact → Cell → Prop} {b : Bank} {r : Nat}

theorem withCell_knowing (b : Bank) (t : Sheet) (l : Ledger) (r : Nat) (c : Cell) :
    (b.knowing t l).withCell r c = (b.withCell r c).knowing t l := rfl

theorem law_update {Q : Fact → Cell → Prop} (hP : ∀ j, Fact.Law (P j)) (hQ : Fact.Law Q) (r j : Nat) :
    Fact.Law (Function.update P r Q j) :=
  (Function.forall_update_iff P fun _ L => Fact.Law L).mpr ⟨hQ, fun k _ => hP k⟩ j

theorem Heeds.weaken {Q : Fact → Cell → Prop} (h : b.Heeds P)
    (hQ : ∀ f, P r f (b.cellAt r) → Q f (b.cellAt r)) : b.Heeds (Function.update P r Q) := by
  obtain ⟨t, hk, hreach, ht⟩ := h
  refine ⟨t, hk, hreach, fun j hj => ?_⟩
  by_cases hjr : j = r
  · subst hjr
    rw [Function.update_self]
    exact hQ _ (ht j hj)
  · rw [Function.update_of_ne hjr]
    exact ht j hj

/-- A register becomes an integer; a double that may have been known stays known. -/
theorem Heeds.asInt_run (h : b.Heeds P) (hP : ∀ j, Fact.Law (P j)) (hr : r < b.reach) {n : Int}
    (hn : fitsWord n = true) :
    ∃ t l, (do setInt r n false; retype r .onlyInt) b = .ok () ((b.withCell r ((b.cellAt r).asInt n)).knowing t l) ∧
      ((b.withCell r ((b.cellAt r).asInt n)).knowing t l).Heeds (Function.update P r Fact.Fair) := by
  obtain ⟨t₁, l₁, hset, h₁⟩ := h.setInt_run hP Fact.law_intless hr hn fun f hf =>
    ⟨fun g hg => (hP r).flags hf g hg, by simp [Fact.dropInt, Fact.int?, Fact.isConstantInt]⟩
  have hP₁ := law_update hP Fact.law_intless r
  have hcell : (b.withCell r ((b.cellAt r).withPayload (intToWord n))).cellAt r =
      (b.cellAt r).withPayload (intToWord n) := cellAt_withCell_self (h.lt_size hr) _
  obtain ⟨t₂, l₂, hlook, h₂⟩ := h₁.flags_run hP₁ hr
  rw [knowing_knowing] at hlook h₂
  obtain ⟨t₃, l₃, hmark, h₃⟩ := h₂.setFlags_run hP₁ Fact.law_fair hr ((b.cellAt r).flags.retype .onlyInt)
    fun f hf => by
      rw [Function.update_self] at hf
      refine ⟨fun g hg => ?_, fun _ n hn => ?_, fun hlast => ?_⟩
      · simpa [Fact.noteFlags, Fact.flags?, Cell.withFlags, eq_comm] using hg
      · rw [show (f.noteFlags _).int? = f.int? from rfl, hf.2] at hn
        cases hn
      · exact absurd rfl hlast
  have hbank : (((b.withCell r ((b.cellAt r).withPayload (intToWord n))).knowing t₂ l₂).withCell r
      (((b.cellAt r).withPayload (intToWord n)).withFlags ((b.cellAt r).flags.retype .onlyInt))).knowing t₃ l₃ =
      (b.withCell r ((b.cellAt r).asInt n)).knowing t₃ l₃ := by
    rw [withCell_knowing, knowing_knowing, withCell_withCell]
    rfl
  rw [Function.update_idem, cellAt_knowing, hcell, hbank] at h₃
  rw [cellAt_knowing, hcell, hbank] at hmark
  rw [cellAt_knowing, hcell] at hlook
  exact ⟨t₃, l₃, (bind_of_ok hset).trans ((bind_of_ok hlook).trans hmark), h₃⟩

theorem Heeds.integerAffinity_run (h : b.Heeds P) (hP : ∀ j, Fact.Law (P j)) (hr : r < b.reach)
    (htrue : ∀ f, P r f (b.cellAt r) → f.True (b.cellAt r)) (hrow : (b.cellAt r).flags.rowSet = false) :
    (∃ t l, (b.cellAt r).real.isFinite = true ∧
      integerAffinity r b = .ok (b.cellAt r).flags ((b.withCell r (b.cellAt r).wholeOrSelf).knowing t l) ∧
      ((b.withCell r (b.cellAt r).wholeOrSelf).knowing t l).Heeds (Function.update P r Fact.Fair)) ∨
    ∃ t l, (b.cellAt r).real.isFinite = false ∧
      integerAffinity r b = .error (if (b.cellAt r).real.isNaN then .badValue else .integerRange) (b.knowing t l) := by
  obtain ⟨t₁, l₁, hlook, h₁⟩ := h.flags_run hP hr
  obtain ⟨a, hreal, ha⟩ := h₁.real_run hr fun f hf => (htrue f hf).real (by simp)
  rw [cellAt_knowing] at ha
  have hstart {α : Type} (k : Flags → Number → BankM α) :
      (do let f ← flags r; check (!f.rowSet); let x ← real r; k f x) b = k (b.cellAt r).flags a (b.knowing t₁ l₁) := by
    rw [bind_of_ok hlook, hrow]
    exact bind_of_ok hreal
  cases hx : (b.cellAt r).real.isFinite with
  | false =>
    exact .inr ⟨t₁, l₁, rfl, (hstart _).trans (bind_of_error (ha.truncate_of_not_isFinite hx))⟩
  | true =>
    left
    have htest := ha.isSome_whole? hx
    cases hwhole : (b.cellAt r).real.whole? with
    | none =>
      rw [hwhole] at htest
      refine ⟨t₁, l₁, rfl, ?_, ?_⟩
      · rw [Cell.wholeOrSelf, hwhole, Option.map_none, Option.getD_none, withCell_cellAt]
        refine (hstart _).trans ((bind_of_ok (ha.truncate_run hx)).trans ?_)
        rw [htest]
        rfl
      · rw [Cell.wholeOrSelf, hwhole, Option.map_none, Option.getD_none, withCell_cellAt]
        exact h₁.weaken fun f hf => (htrue f hf).fair
    | some n =>
      rw [hwhole] at htest
      obtain ⟨-, hvalue, hlow, hhigh⟩ := Double.whole?_eq_some.mp hwhole
      have hpart : wholePart (b.cellAt r).real.value = n := by rw [hvalue, wholePart_intCast]
      obtain ⟨t₂, l₂, hset, h₂⟩ := h₁.asInt_run hP hr (Double.fitsWord_of_inside hlow hhigh)
      rw [withCell_knowing, knowing_knowing, cellAt_knowing] at hset h₂
      rw [Cell.wholeOrSelf, hwhole, Option.map_some, Option.getD_some]
      refine ⟨t₂, l₂, rfl, (hstart _).trans ((bind_of_ok (ha.truncate_run hx)).trans ?_), h₂⟩
      rw [htest, hpart, Option.isSome_some, if_pos rfl, ← bind_assoc, bind_of_ok hset]
      rfl

/-- The register has become `c`, and the buffers what that writes to them. -/
structure Became (b : Bank) (r : Nat) (c : Cell) (b' : Bank) : Prop where
  cells : b'.cells = (b.put r c).cells
  reach : b'.reach = b.reach
  fresh : b'.fresh = b.fresh ∧ c.own = (b.cellAt r).own ∨ b'.fresh = b.fresh + 1

theorem cells_put_congr {a d : Bank} (h : a.cells = d.cells) (r : Nat) (c : Cell) :
    (a.put r c).cells = (d.put r c).cells := by
  have hcell : a.cellAt r = d.cellAt r := by rw [cellAt, cellAt, h]
  simp only [put, hcell, withCell, h]
  split <;> rfl

theorem Became.cellAt {c : Cell} {b' : Bank} (h : b.Became r c b') (j : Nat) : b'.cellAt j = (b.put r c).cellAt j := by
  rw [Bank.cellAt, Bank.cellAt, h.cells]

theorem put_of_string {c : Cell} (h : c.data = (b.cellAt r).data ∧ c.flags.term = (b.cellAt r).flags.term) :
    b.put r c = b.withCell r c := by
  rw [put, Cell.overwrites_of_string h.1 h.2]
  rfl

end Bank

theorem Affinity.code_of_isNumeric : ∀ aff : Affinity, aff.isNumeric = true →
    (Affinity.numeric.code : Int) ≤ aff.code ∧ (Affinity.ofCode? aff.code).isSome = true := by
  intro aff
  cases aff <;> decide

namespace Cell

/-- What the tracked rule makes of a register. -/
def affine (name : Nat) (aff : Affinity) (c : Cell) : Except Fault Cell :=
  if aff.isNumeric then
    if c.flags.int || c.flags.real then .ok c
    else if c.flags.str then .ok (c.applyNumericAffinity true)
    else if c.real.isFinite then .ok c.wholeOrSelf
    else .error (if c.real.isNaN then .badValue else .integerRange)
  else .ok (c.applyAffinity name aff)

end Cell

namespace Bank

variable {P : Nat → Fact → Cell → Prop} {b : Bank} {r : Nat}

theorem Became.refl (t : Sheet) (l : Ledger) : b.Became r (b.cellAt r) (b.knowing t l) :=
  ⟨by rw [put_cellAt]; rfl, rfl, .inl ⟨rfl, rfl⟩⟩

theorem Heeds.became {Q : Fact → Cell → Prop} {t : Sheet} {l : Ledger} (h : (b.knowing t l).Heeds P)
    (hP : ∀ j, Fact.Law (P j)) (hQ : Fact.Law Q) (hr : r < b.reach) (rule : Nat → Cell → Cell) :
    ∃ b', direct r rule (b.knowing t l) = .ok () b' ∧ b.Became r (rule b.fresh (b.cellAt r)) b' ∧
      b'.Heeds (Function.update P r Q) := by
  obtain ⟨t', l', hrun, hheeds⟩ := h.direct_run hP hQ hr rule
  refine ⟨_, hrun, ⟨?_, reach_put _ _ _, .inr (fresh_put _ _ _)⟩, hheeds⟩
  exact cells_put_congr (a := (b.knowing t l).renewed) (d := b) rfl r _

/-- Giving a register an affinity changes it as said, or gives up without having changed a register. -/
theorem Heeds.applyAffinity_run (h : b.Heeds P) (hP : ∀ j, Fact.Law (P j)) (hr : r < b.reach)
    (htrue : ∀ f, P r f (b.cellAt r) → f.True (b.cellAt r)) (hrow : (b.cellAt r).flags.rowSet = false)
    (aff : Affinity) :
    (∃ c b', (b.cellAt r).affine b.fresh aff = .ok c ∧ applyAffinity r aff.code b = .ok () b' ∧ b.Became r c b' ∧
      b'.Heeds (Function.update P r Fact.Fair)) ∨
    ∃ e t l, (b.cellAt r).affine b.fresh aff = .error e ∧ applyAffinity r aff.code b = .error e (b.knowing t l) := by
  obtain ⟨t, l, hlook, h₁⟩ := h.flags_run hP hr
  have hfair := h₁.weaken fun f hf => (htrue f hf).fair
  have hsame : b.Became r (b.cellAt r) (b.knowing t l) := .refl t l
  rw [applyAffinity, bind_of_ok hlook, Cell.affine]
  cases hnumeric : aff.isNumeric with
  | true =>
    obtain ⟨hcode, hvalid⟩ := aff.code_of_isNumeric hnumeric
    rw [if_pos hcode, hvalid, if_pos rfl]
    cases hnumber : (b.cellAt r).flags.int || (b.cellAt r).flags.real with
    | true =>
      rw [← Bool.not_or, hnumber]
      exact .inl ⟨_, _, rfl, rfl, hsame, hfair⟩
    | false =>
      rw [← Bool.not_or, hnumber]
      cases hstr : (b.cellAt r).flags.str with
      | true =>
        obtain ⟨b', hrun, hbecame, h₂⟩ := h₁.became hP Fact.law_fair hr fun _ => Cell.applyNumericAffinity true
        exact .inl ⟨_, b', rfl, hrun, hbecame, h₂⟩
      | false =>
        obtain ⟨t₂, l₂, hfinite, hrun, h₂⟩ | ⟨t₂, l₂, hfinite, hrun⟩ := h₁.integerAffinity_run hP hr htrue hrow
        · rw [cellAt_knowing] at hfinite hrun h₂
          rw [hfinite]
          obtain ⟨hdata, hterm, hown⟩ := (b.cellAt r).string_wholeOrSelf
          refine .inl ⟨_, _, rfl, discard_of_ok hrun, ⟨?_, rfl, .inl ⟨rfl, hown⟩⟩, h₂⟩
          rw [put_of_string ⟨hdata, hterm⟩]
          rfl
        · rw [cellAt_knowing, knowing_knowing] at hrun
          rw [cellAt_knowing] at hfinite
          rw [hfinite]
          refine .inr ⟨_, t₂, l₂, rfl, ?_⟩
          show discard (integerAffinity r) (b.knowing t l) = _
          exact bind_of_error hrun
  | false =>
    cases aff with
    | none => exact .inl ⟨_, _, rfl, rfl, hsame, hfair⟩
    | text =>
      rw [Cell.applyAffinity]
      simp only [Affinity.isNumeric, Bool.false_eq_true, if_false, decide_true, Bool.true_and]
      cases hwrite : !(b.cellAt r).flags.str && (b.cellAt r).flags.numeric with
      | true =>
        obtain ⟨b', hrun, hbecame, h₂⟩ := h₁.became hP Fact.law_fair hr fun name => Cell.stringify name true
        exact .inl ⟨_, b', rfl, hrun, hbecame, h₂⟩
      | false => exact .inl ⟨_, _, rfl, rfl, hsame, hfair⟩
    | _ => cases hnumeric

end Bank

namespace Cell

/-- A register with a value to convert or with none: nothing, a number, a text, a blob, or a text that has been
read as a number. -/
structure Held (c : Cell) : Prop where
  kind : (c.flags.null, c.flags.int, c.flags.real, c.flags.str, c.flags.blob) ∈
    [(true, false, false, false, false), (false, true, false, false, false), (false, false, true, false, false),
      (false, false, false, true, false), (false, false, false, false, true), (false, true, false, true, false),
      (false, false, true, true, false)]
  inside : c.flags.undefined = false ∧ c.flags.rowSet = false ∧ c.flags.frame = false ∧ c.flags.agg = false

/-- The registers that the two rules treat differently: under a numeric affinity, a double that is an integer,
and what is no number and no text if its payload is the double of an integer, an infinity or a NaN. -/
def Strays (aff : Affinity) (c : Cell) : Prop :=
  aff.isNumeric = true ∧ c.flags.int = false ∧
    (c.flags.real = true ∧ c.real.whole?.isSome = true ∨
      c.flags.real = false ∧ c.flags.str = false ∧ (c.real.whole?.isSome = true ∨ c.real.isFinite = false))

theorem view_asInt {c : Cell} (hc : c.flags.agg = false) {n : Int} (hn : fitsWord n = true) :
    (c.asInt n).view = .parts none none none (some n) none := by
  have hint : (c.asInt n).int = n := wordToInt_intToWord_of_fits hn
  simp only [Content.view]
  rw [hint]
  simp [asInt, withFlags, Flags.retype, Flags.union, Flags.storage, Flags.onlyInt, Flags.textual, hc]

theorem view_ne_int {c : Cell} (hc : c.flags.int = false) (n : Int) : c.view ≠ .parts none none none (some n) none := by
  simp only [Content.view, hc, Bool.false_and, Bool.false_eq_true, if_false]
  split_ifs <;> simp

theorem affine_of_not_strays {aff : Affinity} {c : Cell} (h : ¬ c.Strays aff) (name : Nat) :
    c.affine name aff = .ok (c.applyAffinity name aff) := by
  rw [affine, applyAffinity]
  cases hnumeric : aff.isNumeric with
  | false => rfl
  | true =>
    cases hint : c.flags.int with
    | true => rfl
    | false =>
      cases hreal : c.flags.real with
      | true =>
        have hwhole : c.real.whole? = none :=
          Option.not_isSome_iff_eq_none.mp fun hs => h ⟨hnumeric, hint, .inl ⟨hreal, hs⟩⟩
        rw [integerAffinity_eq, wholeOrSelf, hwhole]
        rfl
      | false =>
        cases hstr : c.flags.str with
        | true => rfl
        | false =>
          have hwhole : c.real.whole? = none :=
            Option.not_isSome_iff_eq_none.mp fun hs => h ⟨hnumeric, hint, .inr ⟨hreal, hstr, .inl hs⟩⟩
          have hfinite : c.real.isFinite = true :=
            Bool.eq_true_of_not_eq_false fun hf => h ⟨hnumeric, hint, .inr ⟨hreal, hstr, .inr hf⟩⟩
          rw [hfinite, wholeOrSelf, hwhole]
          rfl

theorem applyAffinity_other (name : Nat) (aff : Affinity) {c : Cell} (hint : c.flags.int = false)
    (hreal : c.flags.real = false) (hstr : c.flags.str = false) : c.applyAffinity name aff = c := by
  rw [applyAffinity, hint, hreal, hstr, Flags.numeric, hint, hreal]
  cases aff <;> rfl

theorem applyAffinity_double (name : Nat) {aff : Affinity} (haff : aff.isNumeric = true) {c : Cell}
    (hint : c.flags.int = false) (hreal : c.flags.real = true) : c.applyAffinity name aff = c.wholeOrSelf := by
  rw [applyAffinity, haff, hint, hreal, ← integerAffinity_eq]
  rfl

theorem view_wholeOrSelf {c : Cell} (hc : c.flags.agg = false) {n : Int} (hn : c.real.whole? = some n) :
    c.wholeOrSelf.view = .parts none none none (some n) none := by
  obtain ⟨-, -, hlow, hhigh⟩ := Double.whole?_eq_some.mp hn
  rw [wholeOrSelf, hn]
  exact view_asInt hc (Double.fitsWord_of_inside hlow hhigh)

theorem Held.agg {c : Cell} (h : c.Held) : c.flags.agg = false := h.inside.2.2.2

theorem Held.rowSet {c : Cell} (h : c.Held) : c.flags.rowSet = false := h.inside.2.1

theorem Held.alone {c : Cell} (h : c.Held) (hc : c.flags.null = true ∨ c.flags.blob = true) :
    c.flags.int = false ∧ c.flags.real = false ∧ c.flags.str = false := by
  have hkind := h.kind
  revert hkind hc
  generalize c.flags.null = n, c.flags.int = i, c.flags.real = x, c.flags.str = s, c.flags.blob = b
  revert n i x s b
  decide

theorem Held.double {c : Cell} (h : c.Held) (hc : c.flags.real = true) : c.flags.int = false := by
  have hkind := h.kind
  revert hkind hc
  generalize c.flags.null = n, c.flags.int = i, c.flags.real = x, c.flags.str = s, c.flags.blob = b
  revert n i x s b
  decide

end Cell

namespace Bank

variable {b : Bank} {r : Nat}

/-- The direct rule leaves alone what has no value and blobs, and turns a double into the integer that it is. The
tracked rule leaves every register as the direct rule does, unless the register is one that they treat
differently. Then it leaves a double alone that the direct rule turns into an integer; and what is no number and
no text, which the direct rule leaves alone, becomes the integer that the payload is as a double, or is refused
if that is infinite or a NaN. -/
theorem applyAffinity_agrees_unless_strays (hb : b.Obeys Fact.True) (hr : r < b.reach) (hc : (b.cellAt r).Held)
    (aff : Affinity) :
    ∃ b₂, modifyCellWith r (fun name => Cell.applyAffinity name aff) b = .ok () b₂ ∧
      ((b.cellAt r).flags.null = true ∨ (b.cellAt r).flags.blob = true → b₂.cells = b.cells) ∧
      (aff.isNumeric = true → (b.cellAt r).flags.real = true → ∀ n : Int, (b.cellAt r).real.isFinite = true →
        (b.cellAt r).real.value = n → minWord < n → n < maxWord →
        (b₂.cellAt r).view = .parts none none none (some n) none) ∧
      (¬ (b.cellAt r).Strays aff → ∃ b₁, applyAffinity r aff.code b = .ok () b₁ ∧ b₁.cells = b₂.cells) ∧
      ((b.cellAt r).Strays aff → (b.cellAt r).flags.real = true →
        ∃ b₁, applyAffinity r aff.code b = .ok () b₁ ∧ b₁.cells = b.cells ∧
          (b₁.cellAt r).view ≠ (b₂.cellAt r).view) ∧
      ((b.cellAt r).Strays aff → (b.cellAt r).flags.real = false →
        match (b.cellAt r).real.whole? with
        | some n => ∃ b₁, applyAffinity r aff.code b = .ok () b₁ ∧
            (b₁.cellAt r).view = .parts none none none (some n) none ∧ (∀ j, j ≠ r → b₁.cellAt j = b.cellAt j) ∧
            (b₁.cellAt r).view ≠ (b₂.cellAt r).view
        | none => ∃ b₁, applyAffinity r aff.code b =
            .error (if (b.cellAt r).real.isNaN then .badValue else .integerRange) b₁ ∧ b₁.cells = b.cells) := by
  have hdirect : (b.renewed.put r ((b.cellAt r).applyAffinity b.fresh aff)).cellAt r =
      (b.cellAt r).applyAffinity b.fresh aff := by rw [cellAt_put (b := b.renewed) (hb.lt_size hr), if_pos rfl]
  have hrun := hb.heeds.applyAffinity_run (fun _ => Fact.law_true) hr (fun _ hf => hf) hc.rowSet aff
  refine ⟨_, modifyCellWith_run _ _ _, ?_, ?_, ?_, ?_, ?_⟩
  · intro hkind
    obtain ⟨hint, hreal, hstr⟩ := hc.alone hkind
    rw [Cell.applyAffinity_other _ aff hint hreal hstr]
    rw [show b.renewed.put r (b.cellAt r) = b.renewed from put_cellAt b.renewed r]
    rfl
  · intro haff hreal n hfinite hvalue hlow hhigh
    rw [hdirect, Cell.applyAffinity_double _ haff (hc.double hreal) hreal]
    exact Cell.view_wholeOrSelf hc.agg (Double.whole?_eq_some.mpr ⟨hfinite, hvalue, hlow, hhigh⟩)
  · intro hstrays
    obtain ⟨c, b₁, haffine, htracked, hbecame, -⟩ | ⟨e, t, l, haffine, -⟩ := hrun
    · rw [Cell.affine_of_not_strays hstrays] at haffine
      cases haffine
      exact ⟨b₁, htracked, hbecame.cells.trans (cells_put_congr (a := b) (d := b.renewed) rfl r _)⟩
    · rw [Cell.affine_of_not_strays hstrays] at haffine
      cases haffine
  · rintro ⟨haff, hint, hkind⟩ hreal
    have hwhole : (b.cellAt r).real.whole?.isSome = true := by
      obtain ⟨-, hwhole⟩ | ⟨hnot, -⟩ := hkind
      · exact hwhole
      · rw [hreal] at hnot
        cases hnot
    obtain ⟨n, hn⟩ := Option.isSome_iff_exists.mp hwhole
    have haffine : (b.cellAt r).affine b.fresh aff = .ok (b.cellAt r) := by
      rw [Cell.affine, haff, hreal, Bool.or_true]
      rfl
    obtain ⟨c, b₁, haffine', htracked, hbecame, -⟩ | ⟨e, t, l, haffine', -⟩ := hrun
    · cases haffine.symm.trans haffine'
      have hcells : b₁.cells = b.cells := hbecame.cells.trans (congrArg cells (put_cellAt b r))
      refine ⟨b₁, htracked, hcells, ?_⟩
      rw [hdirect, Cell.applyAffinity_double _ haff hint hreal, Cell.view_wholeOrSelf hc.agg hn, cellAt, hcells]
      exact Cell.view_ne_int hint n
    · cases haffine.symm.trans haffine'
  · rintro ⟨haff, hint, hkind⟩ hreal
    have hstr : (b.cellAt r).flags.str = false := by
      obtain ⟨hnot, -⟩ | ⟨-, hstr, -⟩ := hkind
      · rw [hreal] at hnot
        cases hnot
      · exact hstr
    have haffine : (b.cellAt r).affine b.fresh aff = if (b.cellAt r).real.isFinite then .ok (b.cellAt r).wholeOrSelf
        else .error (if (b.cellAt r).real.isNaN then .badValue else .integerRange) := by
      rw [Cell.affine, haff, hint, hreal, hstr]
      rfl
    rw [hdirect, Cell.applyAffinity_other _ aff hint hreal hstr]
    cases hwhole : (b.cellAt r).real.whole? with
    | some n =>
      rw [(Double.whole?_eq_some.mp hwhole).1, if_pos rfl] at haffine
      obtain ⟨c, b₁, haffine', htracked, hbecame, -⟩ | ⟨e, t, l, haffine', -⟩ := hrun
      · cases haffine.symm.trans haffine'
        have hcells := hbecame.cellAt
        rw [put_of_string ⟨(b.cellAt r).string_wholeOrSelf.1, (b.cellAt r).string_wholeOrSelf.2.1⟩] at hcells
        have hview : (b₁.cellAt r).view = .parts none none none (some n) none := by
          rw [hcells, cellAt_withCell_self (hb.lt_size hr), Cell.view_wholeOrSelf hc.agg hwhole]
        refine ⟨b₁, htracked, hview, fun j hj => ?_, ?_⟩
        · rw [hcells, cellAt_withCell (hb.lt_size hr), if_neg (Ne.symm hj)]
        · rw [hview]
          exact (Cell.view_ne_int hint n).symm
      · cases haffine.symm.trans haffine'
    | none =>
      have hfinite : (b.cellAt r).real.isFinite = false := by
        obtain ⟨hnot, -⟩ | ⟨-, -, hsome | hfinite⟩ := hkind
        · rw [hreal] at hnot
          cases hnot
        · rw [hwhole] at hsome
          cases hsome
        · exact hfinite
      rw [hfinite, if_neg Bool.false_ne_true] at haffine
      obtain ⟨c, b₁, haffine', -⟩ | ⟨e, t, l, haffine', htracked⟩ := hrun
      · cases haffine.symm.trans haffine'
      · cases haffine.symm.trans haffine'
        exact ⟨_, htracked, rfl⟩

def five : Double := ⟨0x4014000000000000⟩

theorem whole?_five : five.whole? = some 5 := by
  have hmant : five.scaled.mant = 5629499534213120 := by decide
  have hexp : five.scaled.exp = -50 := by decide
  refine Double.whole?_eq_some.mpr ⟨by decide, ?_, by decide, by decide⟩
  rw [Double.value, show five.neg = false from rfl, hmant, hexp]
  norm_num

/-- A register without a value in which a double has been left, and a register with that double. -/
def leftover : Bank := ofCells #[{ Cell.null with payload := five.bits }, .ofReal five] true true 0

/-- What the tracked rule makes of both: an integer out of nothing, and a double where there should be an integer. -/
theorem applyAffinity_agrees_unless_strays_leftover :
    (∃ b₁, applyAffinity 0 Affinity.numeric.code leftover = .ok () b₁ ∧
      (b₁.cellAt 0).view = .parts none none none (some 5) none) ∧
    ∃ b₁ b₂, applyAffinity 1 Affinity.integer.code leftover = .ok () b₁ ∧ b₁.cells = leftover.cells ∧
      modifyCellWith 1 (fun name => Cell.applyAffinity name .integer) leftover = .ok () b₂ ∧
      (b₂.cellAt 1).view = .parts none none none (some 5) none := by
  have hheld0 : (leftover.cellAt 0).Held := ⟨by decide, by decide⟩
  have hheld1 : (leftover.cellAt 1).Held := ⟨by decide, by decide⟩
  have hobeys : leftover.Obeys Fact.True := (trusts_ofCells _ true 0).obeys
  have hwhole0 : (leftover.cellAt 0).real.whole? = some 5 := whole?_five
  have hwhole1 : (leftover.cellAt 1).real.whole? = some 5 := whole?_five
  constructor
  · obtain ⟨b₂, -, -, -, -, -, hstray⟩ := applyAffinity_agrees_unless_strays hobeys (r := 0) (by decide) hheld0 .numeric
    have hrun := hstray ⟨rfl, rfl, .inr ⟨rfl, rfl, .inl (by rw [hwhole0]; rfl)⟩⟩ rfl
    rw [hwhole0] at hrun
    obtain ⟨b₁, hrun, hview, -⟩ := hrun
    exact ⟨b₁, hrun, hview⟩
  · obtain ⟨b₂, hdirect, -, hint, -, hstray, -⟩ :=
      applyAffinity_agrees_unless_strays hobeys (r := 1) (by decide) hheld1 .integer
    obtain ⟨b₁, hrun, hcells, -⟩ := hstray ⟨rfl, rfl, .inl ⟨rfl, by rw [hwhole1]; rfl⟩⟩ rfl
    obtain ⟨hfinite, hvalue, hlow, hhigh⟩ := Double.whole?_eq_some.mp hwhole1
    exact ⟨b₁, b₂, hrun, hcells, hdirect, hint rfl rfl 5 hfinite hvalue hlow hhigh⟩

end Bank

end QueryMachine
