import Mathlib
import QueryMachine.Proofs.Serials
import QueryMachine.Proofs.Unaware

/-!
Banks of which everything that is known is true. There the accesses to a register give what it holds, and
what is written is known truly.
-/

namespace QueryMachine

namespace Double

theorem cmpInt_zero (x : Double) : x.cmpInt 0 = Ord.compare x.key 0 := by
  have hmant := scaled_mant_eq_zero_iff x
  simp only [cmpInt, key, Int.zero_mul]
  by_cases hz : x.magnitude = 0
  · rw [hmant.mpr hz, hz]
    simp
  · have hpos : 0 < x.scaled.mant := Nat.pos_of_ne_zero (mt hmant.mp hz)
    have hpow : (0 : Int) < Nat.pow 2 x.scaled.exp.toNat := by
      rw [Nat.pow_eq]
      exact_mod_cast Nat.two_pow_pos _
    cases x.neg with
    | true =>
      have hleft : (-(x.scaled.mant : Int)) * Nat.pow 2 x.scaled.exp.toNat < 0 :=
        Int.mul_neg_of_neg_of_pos (by omega) hpow
      have hkey : Ord.compare (-(x.magnitude : Int)) 0 = .lt := compare_lt_iff_lt.mpr (by omega)
      simp only [if_true, hkey]
      split
      · exact compare_lt_iff_lt.mpr hleft
      · exact compare_lt_iff_lt.mpr (by omega)
    | false =>
      have hleft : 0 < (x.scaled.mant : Int) * Nat.pow 2 x.scaled.exp.toNat :=
        Int.mul_pos (by omega) hpow
      have hkey : Ord.compare (x.magnitude : Int) 0 = .gt := compare_gt_iff_gt.mpr (by omega)
      simp only [Bool.false_eq_true, if_false, hkey]
      split
      · exact compare_gt_iff_gt.mpr hleft
      · exact compare_gt_iff_gt.mpr (by omega)

theorem compare_key_of_isInf {x : Double} (h : x.isInf = true) :
    Ord.compare x.key 0 = if x.neg then .lt else .gt := by
  have hinf : infMagnitude = 9218868437227405312 := rfl
  simp only [isInf, beq_iff_eq] at h
  rw [key, h, hinf]
  cases x.neg <;> decide

end Double

namespace Number

/-- A number that may be read in the place of a double. -/
def Stands (a : Number) (x : Double) : Prop := a = .real x ∨ a.Plain ∧ x.isNaN = false ∧ x.key = a.level

variable {a b : Number} {x y : Double}

theorem stands_real (x : Double) : (Number.real x).Stands x := .inl rfl

/-- The order does not tell numbers apart that may be read for each other. -/
theorem Stands.cmp? (ha : a.Stands x) (hb : b.Stands y) (hx : x.isNaN = false) (hy : y.isNaN = false) :
    a.cmp? b = some (Ord.compare x.key y.key) := by
  have hzero {z : Double} (hz : z.isNaN = false) : (Number.real z).cmp? (.int 0) = some (Ord.compare z.key 0) := by
    simp only [Number.cmp?, hz, Bool.false_eq_true, if_false]
    split
    · rename_i hinf
      rw [Double.compare_key_of_isInf hinf]
    · rw [Double.cmpInt_zero]
  have hzero' {z : Double} (hz : z.isNaN = false) : (Number.int 0).cmp? (.real z) = some (Ord.compare 0 z.key) := by
    have hswap := congrArg (Option.map Ordering.swap) (hzero hz)
    rw [Option.map_some, ← Int.compare_swap, Ordering.swap_swap] at hswap
    rw [← hswap]
    simp only [Number.cmp?, hz, Bool.false_eq_true, if_false]
    split
    · cases z.neg <;> rfl
    · rfl
  have hreal {z w : Double} (hz : z.isNaN = false) (hw : w.isNaN = false) :
      (Number.real z).cmp? (.real w) = some (Ord.compare z.key w.key) := by
    rw [Number.cmp?, hz, hw]
    rfl
  have hplain {c : Number} {z : Double} (hc : c.Stands z) (hz : z.isNaN = false) :
      c = .int 0 ∧ z.key = 0 ∨ ∃ w : Double, c = .real w ∧ w.isNaN = false ∧ z.key = w.key := by
    obtain rfl | ⟨hp, -, hkey⟩ := hc
    · exact .inr ⟨z, rfl, hz, rfl⟩
    · cases c with
      | int n =>
        cases (show n = 0 from hp)
        exact .inl ⟨rfl, hkey⟩
      | real w => exact .inr ⟨w, rfl, Double.isNaN_of_isFinite hp, hkey⟩
  obtain ⟨rfl, hkx⟩ | ⟨x', rfl, hx', hkx⟩ := hplain ha hx <;>
    obtain ⟨rfl, hky⟩ | ⟨y', rfl, hy', hky⟩ := hplain hb hy <;> rw [hkx, hky]
  · rfl
  · exact hzero' hy'
  · exact hzero hx'
  · exact hreal hx' hy'

end Number

namespace Fact

/-- A law that facts about cells may obey: it depends only on what a fact says and on the marks and the
payload of the cell, a fact that says nothing obeys it, and the marks that it lets be known are true. -/
structure Law (P : Fact → Cell → Prop) : Prop where
  like : ∀ {f g c}, P g c → f.Like g → f.Plain → g.Plain → P f c
  nothing : ∀ {f c}, f.known = .nothing → P f c
  parts : ∀ {f c d}, P f c → d.flags = c.flags → d.payload = c.payload → P f d
  flags : ∀ {f c}, P f c → ∀ g, f.flags? = some g → g = c.flags
  look : ∀ {f c}, P f c → P (f.noteFlags c.flags) c

/-- A law that also says something about the integer that may be known, and about whether a double is. -/
theorem Law.known {P : Fact → Cell → Prop} (hP : Law P) {Q : Option Int → Bool → Prop} (hQ : Q none false) :
    Law fun f c => P f c ∧ Q f.int? f.real?.isSome where
  like h hl hf hg := ⟨hP.like h.1 hl hf hg, by rw [hl.int?_eq, hl.isSome_real?]; exact h.2⟩
  nothing h := ⟨hP.nothing h, by simpa [int?, real?, isConstantInt, isConstantReal, h, Known.nothing] using hQ⟩
  parts h hflags hpayload := ⟨hP.parts h.1 hflags hpayload, h.2⟩
  flags h := hP.flags h.1
  look h := ⟨hP.look h.1, h.2⟩

/-- The marks that are known are true. -/
def Honest (f : Fact) (c : Cell) : Prop := ∀ g, f.flags? = some g → g = c.flags

/-- Everything that is known is true. -/
def True (f : Fact) (c : Cell) : Prop := f.Holds c none

/-- Everything that is known is true, but for the double of an integer. -/
def Fair (f : Fact) (c : Cell) : Prop := f.Holds c (if c.flags.int then some .int else none)

theorem law_honest : Law Honest where
  like h hl _ _ g hg := h g (by rw [← hl.flags?_eq, hg])
  nothing {f c} h := (holds_of_nothing h : f.Holds c none).flags
  parts h hflags _ g hg := (h g hg).trans hflags.symm
  flags h := h
  look _ g hg := by simpa [noteFlags, flags?, eq_comm] using hg

theorem honest_noteFlags (f : Fact) (c : Cell) (g : Flags) : (f.noteFlags g).Honest (c.withFlags g) := by
  intro k hk
  have hg : g = k := by simpa [noteFlags, flags?] using hk
  exact hg.symm

theorem law_true : Law Fact.True where
  like h := h.of_like
  nothing := holds_of_nothing
  parts h := h.of_parts
  flags h := h.flags
  look h := Access.holds (a := .getFlags) trivial h

theorem True.fair {f : Fact} {c : Cell} (h : f.True c) : f.Fair c :=
  ⟨h.flags, fun _ => h.int (by simp), fun _ => h.real (by simp)⟩

theorem law_fair : Law Fair where
  like h := h.of_like
  nothing := holds_of_nothing
  parts {f c d} h hflags hpayload := by
    rw [Fair, hflags]
    exact h.of_parts hflags hpayload
  flags h := h.flags
  look h := Access.holds (a := .getFlags) trivial h

end Fact

namespace Bank

/-- What is known about each register obeys a law of its own. -/
def Heeds (P : Nat → Fact → Cell → Prop) (b : Bank) : Prop :=
  ∃ t, b.Keeps t ∧ b.reach ≤ b.cells.size ∧ ∀ r < b.reach, P r (t.fact r) (b.cellAt r)

namespace Heeds

variable {P P' : Nat → Fact → Cell → Prop} {Q : Fact → Cell → Prop} {b : Bank} {r : Nat}

theorem mono (h : b.Heeds P) (hP : ∀ {j f c}, P j f c → P' j f c) : b.Heeds P' := by
  obtain ⟨t, hk, hreach, ht⟩ := h
  exact ⟨t, hk, hreach, fun j hj => hP (ht j hj)⟩

theorem reach (h : b.Heeds P) : b.reach ≤ b.cells.size := by
  obtain ⟨t, -, hreach, -⟩ := h
  exact hreach

theorem lt_size (h : b.Heeds P) (hr : r < b.reach) : r < b.cells.size := Nat.lt_of_lt_of_le hr h.reach

theorem of_noted {t t' : Sheet} {l : Ledger} {c : Cell} {g : Fact → Fact} (hP : ∀ j, Fact.Law (P j))
    (hQ : Fact.Law Q) (hk : b.Keeps t) (hreach : b.reach ≤ b.cells.size)
    (ht : ∀ j < b.reach, P j (t.fact j) (b.cellAt j)) (hr : r < b.reach)
    (hk' : ((b.withCell r c).knowing t' l).Keeps t')
    (hs : t'.Shows ((b.withCell r c).noted (t.facts.modify r g))) (hplain : (g (t.fact r)).Plain)
    (hg : Q (g (t.fact r)) c) : ((b.withCell r c).knowing t' l).Heeds (Function.update P r Q) := by
  have hlt : r < b.cells.size := Nat.lt_of_lt_of_le hr hreach
  have hfact := (hk.withCell r c).fact_noted (by rwa [size_withCell]) hs
  refine ⟨t', hk', ?_, fun j hj => ?_⟩
  · show b.reach ≤ (b.withCell r c).cells.size
    rwa [size_withCell]
  · have hlike := hfact j
    rw [cellAt_knowing, cellAt_withCell hlt]
    by_cases hjr : r = j
    · subst hjr
      rw [if_pos rfl, Function.update_self]
      cases hc : b.holder.useCache with
      | true =>
        rw [if_pos ⟨rfl, hc⟩] at hlike
        exact hQ.like hg hlike (hk'.plain.fact r) hplain
      | false =>
        rw [if_neg (fun h => by simp [hc] at h), hk.fact_unused hc] at hlike
        exact hQ.nothing hlike.known
    · rw [if_neg hjr, Function.update_of_ne (Ne.symm hjr)]
      rw [if_neg (fun hc => hjr hc.1)] at hlike
      exact (hP j).like (ht j hj) hlike (hk'.plain.fact j) (hk.plain.fact j)

theorem flags_run (h : b.Heeds P) (hP : ∀ j, Fact.Law (P j)) (hr : r < b.reach) :
    ∃ t l, flags r b = .ok (b.cellAt r).flags (b.knowing t l) ∧ (b.knowing t l).Heeds P := by
  obtain ⟨t, hk, hreach, ht⟩ := h
  obtain ⟨b', hrun, t', l, rfl, hk', hs⟩ := hk.flags_run ((hP r).flags (ht r hr))
  have hsame := withCell_cellAt b r
  have hheeds := of_noted hP (hP r) hk hreach ht hr (c := b.cellAt r) (hsame.symm ▸ hk') (hsame.symm ▸ hs)
    (hk.plain.fact r) ((hP r).look (ht r hr))
  rw [Function.update_eq_self, hsame] at hheeds
  exact ⟨t', l, hrun, hheeds⟩

theorem setFlags_run (h : b.Heeds P) (hP : ∀ j, Fact.Law (P j)) (hQ : Fact.Law Q) (hr : r < b.reach) (g : Flags)
    (hg : ∀ f, P r f (b.cellAt r) → Q (f.noteFlags g) ((b.cellAt r).withFlags g)) :
    ∃ t l, setFlags r g b = .ok () ((b.withCell r ((b.cellAt r).withFlags g)).knowing t l) ∧
      ((b.withCell r ((b.cellAt r).withFlags g)).knowing t l).Heeds (Function.update P r Q) := by
  obtain ⟨t, hk, hreach, ht⟩ := h
  obtain ⟨b', hrun, t', l, rfl, hk', hs⟩ := hk.noteFlags_run (g := g) (Nat.lt_of_lt_of_le hr hreach)
    ((hP r).flags (ht r hr)) (fun hw : true = false => by cases hw)
  exact ⟨t', l, hrun, of_noted hP hQ hk hreach ht hr hk' hs (hk.plain.fact r) (hg _ (ht r hr))⟩

theorem setInt_run (h : b.Heeds P) (hP : ∀ j, Fact.Law (P j)) (hQ : Fact.Law Q) (hr : r < b.reach) {n : Int}
    (hn : fitsWord n = true)
    (hg : ∀ f, P r f (b.cellAt r) → Q f.dropInt ((b.cellAt r).withPayload (intToWord n))) :
    ∃ t l, setInt r n false b = .ok () ((b.withCell r ((b.cellAt r).withPayload (intToWord n))).knowing t l) ∧
      ((b.withCell r ((b.cellAt r).withPayload (intToWord n))).knowing t l).Heeds (Function.update P r Q) := by
  obtain ⟨t, hk, hreach, ht⟩ := h
  obtain ⟨b', hrun, t', l, rfl, hk', hs⟩ := hk.setInt_run r hn false
  exact ⟨t', l, hrun, of_noted hP hQ hk hreach ht hr hk' hs (hk.plain.fact r) (hg _ (ht r hr))⟩

theorem int_run (h : b.Heeds P) (hr : r < b.reach)
    (hint : ∀ f, P r f (b.cellAt r) → ∀ n, f.int? = some n → n = (b.cellAt r).int) :
    int r b = .ok (b.cellAt r).int b := by
  obtain ⟨t, hk, -, ht⟩ := h
  rw [hk.int_run r]
  cases hn : (t.fact r).int? with
  | none => rfl
  | some n => rw [Option.getD_some, hint _ (ht r hr) n hn]

theorem real_run (h : b.Heeds P) (hr : r < b.reach)
    (hreal : ∀ f, P r f (b.cellAt r) → ∀ x, f.real? = some x → (Number.real (b.cellAt r).real).eq x = true) :
    ∃ a : Number, real r b = .ok a b ∧ a.Stands (b.cellAt r).real := by
  obtain ⟨t, hk, -, ht⟩ := h
  refine ⟨_, hk.real_run r, ?_⟩
  cases ha : (t.fact r).real? with
  | none => exact .inl rfl
  | some a =>
    have hplain := (hk.plain.fact r).real? ha
    exact .inr ⟨hplain, (Number.real_eq_iff hplain _).mp (hreal _ (ht r hr) a ha)⟩

theorem forget_run (h : b.Heeds P) (hP : ∀ j, Fact.Law (P j)) (hr : r < b.reach) :
    ∃ t l, invalidate r b = .ok () (b.knowing t l) ∧ (b.knowing t l).Keeps t ∧
      (∀ j < b.reach, P j (t.fact j) (b.cellAt j)) ∧ (t.fact r).known = .nothing := by
  obtain ⟨t, hk, hreach, ht⟩ := h
  obtain ⟨b', hforget, t', l, rfl, hk', hs⟩ := hk.invalidate_run r
  have hfact := hk.fact_noted (Nat.lt_of_lt_of_le hr hreach) hs
  have hnothing : (t'.fact r).known = .nothing := by
    have hlike := hfact r
    split at hlike
    · rw [hlike.known, Fact.forget_known]
    · rename_i hc
      rw [hlike.known, hk.fact_unused (by simpa using hc)]
  refine ⟨t', l, hforget, hk', fun j hj => ?_, hnothing⟩
  by_cases hjr : r = j
  · exact (hP j).nothing (hjr ▸ hnothing)
  · have hlike := hfact j
    rw [if_neg (fun hc => hjr hc.1)] at hlike
    exact (hP j).like (ht j hj) hlike (hk'.plain.fact j) (hk.plain.fact j)

theorem direct_run (h : b.Heeds P) (hP : ∀ j, Fact.Law (P j)) (hQ : Fact.Law Q) (hr : r < b.reach)
    (rule : Nat → Cell → Cell) :
    ∃ t l, direct r rule b = .ok () ((b.renewed.put r (rule b.fresh (b.cellAt r))).knowing t l) ∧
      ((b.renewed.put r (rule b.fresh (b.cellAt r))).knowing t l).Heeds (Function.update P r Q) := by
  obtain ⟨t, l, hforget, hk, ht, hnothing⟩ := h.forget_run hP hr
  have hput : (b.knowing t l).renewed.put r (rule b.fresh (b.cellAt r)) =
      (b.renewed.put r (rule b.fresh (b.cellAt r))).knowing t l := put_knowing b.renewed t l r _
  refine ⟨t, l, ?_, t, ?_, ?_, fun j hj => ?_⟩
  · rw [← hput]
    exact (bind_of_ok hforget).trans (modifyCellWith_run _ _ _)
  · rw [← hput]
    exact hk.renewed.put r _
  · show (b.renewed.put r _).reach ≤ (b.renewed.put r _).cells.size
    rw [reach_put, size_put]
    exact h.reach
  · have hj' : j < b.reach := by
      rw [show ((b.renewed.put r _).knowing t l).reach = (b.renewed.put r _).reach from rfl, reach_put] at hj
      exact hj
    rw [cellAt_knowing, cellAt_put (b := b.renewed) (h.lt_size hr)]
    by_cases hjr : r = j
    · subst hjr
      rw [Function.update_self]
      exact hQ.nothing hnothing
    · rw [if_neg hjr, Function.update_of_ne (Ne.symm hjr)]
      split
      · exact (hP j).parts (ht j hj') (Cell.flags_seeing _ _) (Cell.payload_seeing _ _)
      · exact ht j hj'

end Heeds

/-- What is known about the registers obeys a law. -/
def Obeys (P : Fact → Cell → Prop) (b : Bank) : Prop :=
  ∃ t, b.Keeps t ∧ b.reach ≤ b.cells.size ∧ ∀ r < b.reach, P (t.fact r) (b.cellAt r)

variable {P Q : Fact → Cell → Prop} {b : Bank} {r : Nat}

theorem Trusts.obeys {t : Sheet} {known : Nat → Bool} (h : b.Trusts t known) : b.Obeys Fact.True :=
  ⟨t, h.keeps, h.reach, h.holds⟩

namespace Obeys

theorem heeds (h : b.Obeys P) : b.Heeds fun _ => P := h

theorem of_update (h : b.Heeds (Function.update (fun _ => P) r P)) : b.Obeys P := by
  rwa [Function.update_eq_self] at h

theorem mono (h : b.Obeys P) (hPQ : ∀ {f c}, P f c → Q f c) : b.Obeys Q := h.heeds.mono hPQ

theorem reach (h : b.Obeys P) : b.reach ≤ b.cells.size := h.heeds.reach

theorem lt_size (h : b.Obeys P) (hr : r < b.reach) : r < b.cells.size := h.heeds.lt_size hr

theorem flags_run (h : b.Obeys P) (hP : Fact.Law P) (hr : r < b.reach) :
    ∃ t l, flags r b = .ok (b.cellAt r).flags (b.knowing t l) ∧ (b.knowing t l).Obeys P :=
  h.heeds.flags_run (fun _ => hP) hr

theorem setFlags_run (h : b.Obeys P) (hP : Fact.Law P) (hr : r < b.reach) (g : Flags)
    (hg : ∀ f, P f (b.cellAt r) → P (f.noteFlags g) ((b.cellAt r).withFlags g)) :
    ∃ t l, setFlags r g b = .ok () ((b.withCell r ((b.cellAt r).withFlags g)).knowing t l) ∧
      ((b.withCell r ((b.cellAt r).withFlags g)).knowing t l).Obeys P := by
  obtain ⟨t, l, hrun, hheeds⟩ := h.heeds.setFlags_run (fun _ => hP) hP hr g hg
  exact ⟨t, l, hrun, of_update hheeds⟩

theorem setInt_run (h : b.Obeys P) (hP : Fact.Law P) (hr : r < b.reach) {n : Int} (hn : fitsWord n = true)
    (hg : ∀ f, P f (b.cellAt r) → P f.dropInt ((b.cellAt r).withPayload (intToWord n))) :
    ∃ t l, setInt r n false b = .ok () ((b.withCell r ((b.cellAt r).withPayload (intToWord n))).knowing t l) ∧
      ((b.withCell r ((b.cellAt r).withPayload (intToWord n))).knowing t l).Obeys P := by
  obtain ⟨t, l, hrun, hheeds⟩ := h.heeds.setInt_run (fun _ => hP) hP hr hn hg
  exact ⟨t, l, hrun, of_update hheeds⟩

theorem invalidate_run (h : b.Obeys P) (hP : Fact.Law P) (hr : r < b.reach) :
    ∃ t l, invalidate r b = .ok () (b.knowing t l) ∧ (b.knowing t l).Obeys P := by
  obtain ⟨t, l, hforget, hk, ht, -⟩ := h.heeds.forget_run (fun _ => hP) hr
  exact ⟨t, l, hforget, t, hk, h.reach, ht⟩

theorem direct_run (h : b.Obeys P) (hP : Fact.Law P) (hr : r < b.reach) (rule : Nat → Cell → Cell) :
    ∃ t l, direct r rule b = .ok () ((b.renewed.put r (rule b.fresh (b.cellAt r))).knowing t l) ∧
      ((b.renewed.put r (rule b.fresh (b.cellAt r))).knowing t l).Obeys P := by
  obtain ⟨t, l, hrun, hheeds⟩ := h.heeds.direct_run (fun _ => hP) hP hr rule
  exact ⟨t, l, hrun, of_update hheeds⟩

theorem int_run (h : b.Obeys Fact.True) (hr : r < b.reach) : int r b = .ok (b.cellAt r).int b :=
  h.heeds.int_run hr fun _ hf => hf.int (by simp)

theorem real_run (h : b.Obeys Fact.True) (hr : r < b.reach) :
    ∃ a : Number, real r b = .ok a b ∧ a.Stands (b.cellAt r).real :=
  h.heeds.real_run hr fun _ hf => hf.real (by simp)

end Obeys

end Bank

end QueryMachine
