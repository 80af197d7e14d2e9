import Mathlib
import QueryMachine.Proofs.Abiding
import QueryMachine.Proofs.Writing

/-!
Records of registers that are given an affinity first. A record is made as if all registers were given the
affinity of the first letter, then their zeros written out, then the record made, but for the zeros that are
taken off its length.
-/

namespace QueryMachine

namespace Decimal

theorem length_takeDigits (n avail : Nat) (x : Scaled) : (takeDigits n avail x).1.length = n := by
  induction n generalizing avail x with
  | zero => rfl
  | succ n ih =>
    cases avail with
    | zero => exact List.length_replicate
    | succ avail => exact congrArg (· + 1) (ih avail _)

theorem length_trimZeros_le (keep : Bool) (bytes : Bytes) : (trimZeros keep bytes).length ≤ bytes.length + 1 := by
  have hdrop : (bytes.reverse.dropWhile (· == 48)).length ≤ bytes.length := by
    have hle := (List.dropWhile_sublist (l := bytes.reverse) (· == 48)).length_le
    rwa [List.length_reverse] at hle
  unfold trimZeros
  dsimp only
  split
  · rename_i rest hrest
    split
    · rw [List.length_reverse, List.length_cons]
      omega
    · rw [hrest, List.length_cons] at hdrop
      rw [List.length_reverse]
      omega
  · rw [List.length_reverse]
    omega

theorem length_exponentSuffix_le (letter : UInt8) (exp : Int) : (exponentSuffix letter exp).length ≤ 5 := by
  unfold exponentSuffix
  simp only [List.length_cons, List.length_append]
  split <;> simp

theorem length_ofReal_le (x : Double) : (ofReal x).length ≤ 64 := by
  have hmagnitude : (magnitude { style := .general, precision := 15, wide := true } x).length ≤ 63 := by
    unfold magnitude
    split
    · cbv
    split
    · cbv
    extract_lets style precision rounder value avail trimmed
    split
    rename_i value₁ exp₁ _
    split
    rename_i value₂ exp₂ _
    extract_lets exponential places lead point zeros
    have hbounds : lead ≤ 14 ∧ places.toNat ≤ 18 ∧ zeros ≤ 3 := by
      have hexponential : exponential = (decide (exp₂ < -4) || decide (14 < exp₂)) := rfl
      have hplaces : places = if !exponential then 14 - exp₂ else 14 := rfl
      have hlead : lead = if exponential then 0 else exp₂ := rfl
      have hzeros : zeros = if lead < 0 then (-lead - 1).toNat else 0 := rfl
      clear_value exponential places lead zeros
      subst hexponential
      rw [hzeros, hplaces, hlead]
      by_cases hcase : exp₂ < -4 ∨ 14 < exp₂
      · have htest : (decide (exp₂ < -4) || decide (14 < exp₂)) = true := by simpa using hcase
        rw [htest]
        simp
      · have htest : (decide (exp₂ < -4) || decide (14 < exp₂)) = false := by simpa using hcase
        rw [htest]
        simp only [Bool.not_false, if_true, Bool.false_eq_true, if_false]
        split <;> omega
    have hpoint : point.length ≤ 1 := by
      show (List.length (if _ then _ else _)) ≤ 1
      split <;> decide
    clear_value exponential places lead zeros point trimmed
    split
    rename_i before avail' value₃ hbefore
    have hlead : before.length ≤ 15 := by
      split at hbefore
      · cases hbefore
        decide
      · have hlength := length_takeDigits (lead.toNat + 1) avail value₂
        rw [hbefore] at hlength
        change before.length = _ at hlength
        omega
    split
    rename_i after _ _ hafter
    have hplaces := length_takeDigits (places.toNat - zeros) avail' value₃
    rw [hafter] at hplaces
    change after.length = _ at hplaces
    extract_lets digits trimmedDigits
    have hdigits : digits.length ≤ 40 := by
      rw [show digits = before ++ point ++ List.replicate zeros 48 ++ after from rfl]
      simp only [List.length_append, List.length_replicate]
      omega
    have htrimmed : trimmedDigits.length ≤ 41 := by
      have htrim := length_trimZeros_le true digits
      show (List.length (if _ then trimZeros true digits else _)) ≤ 41
      split <;> omega
    have hsuffix (letter : UInt8) : (if exponential then exponentSuffix letter exp₂ else []).length ≤ 5 := by
      split
      · exact length_exponentSuffix_le letter exp₂
      · decide
    rw [List.length_append]
    exact Nat.add_le_add htrimmed (hsuffix _) |>.trans (by decide)
  rw [ofReal, render]
  split
  · rw [List.length_cons]
    omega
  · omega

theorem length_ofInt_le {n : Int} (h : fitsWord n = true) : (ofInt n).length ≤ 80 := by
  have hlist (a : ByteArray) (i : Nat) (r : List UInt8) : (ByteArray.toList.loop a i r).length = a.size - i + r.length := by
    fun_induction ByteArray.toList.loop a i r with
    | case1 i r h ih =>
      rw [ih, List.length_cons]
      omega
    | case2 i r h =>
      rw [List.length_reverse]
      omega
  have hchars (cs : List Char) : String.utf8Len cs ≤ 4 * cs.length := by
    induction cs with
    | nil => decide
    | cons c cs ih =>
      have := Char.utf8Size_le_four c
      rw [String.utf8Len_cons, List.length_cons]
      omega
  have hbytes (s : String) : (Bytes.ofString s).length ≤ 4 * s.length := by
    rw [Bytes.ofString, ByteArray.toList, hlist]
    have := hchars s.toList
    rw [← String.utf8ByteSize_ofList, String.length_toList] at this
    simpa using this
  have hrepr (m : Nat) (hm : m < 10 ^ 19) : m.repr.length ≤ 19 := Nat.repr_length m 19 (by decide) hm
  simp only [fitsWord, minWord, maxWord, Bool.and_eq_true, decide_eq_true_eq] at h
  have htext : (toString n).length ≤ 20 := by
    cases n with
    | ofNat m =>
      rw [Int.ofNat_eq_natCast] at h
      have := hrepr m (by omega)
      exact this.trans (by decide)
    | negSucc m =>
      have := hrepr (m + 1) (by omega)
      show ("-" ++ (m + 1).repr).length ≤ 20
      rw [String.length_append, show "-".length = 1 from rfl]
      omega
  have := hbytes (toString n)
  rw [ofInt]
  omega

end Decimal

namespace Cell

variable {c d : Cell} {name : Nat} {aff : Affinity}

theorem Recordable.of_numeric (hdefined : d.flags.undefined = false) (hzero : d.flags.zero = false)
    (hnumeric : d.flags.numeric = true) : d.Recordable := by
  refine ⟨hdefined, fun hz => ?_, fun hk => ?_⟩
  · rw [hzero] at hz
    cases hz
  · rw [Flags.numeric, Bool.or_eq_true] at hnumeric
    obtain ⟨hkind, -⟩ | ⟨hkind, -⟩ | ⟨hkind, -⟩ | ⟨-, -, hint, hreal⟩ := d.flags.kind_cases
    · rw [hkind] at hk
      simp at hk
    · rw [hkind] at hk
      simp at hk
    · rw [hkind] at hk
      simp at hk
    · rw [hint, hreal] at hnumeric
      simp at hnumeric

theorem Recordable.zero_of_kind (h : c.Recordable) (hk : c.flags.kind ≠ .blob) : c.flags.zero = false :=
  Bool.eq_false_iff.mpr fun hz => hk (h.counted hz).1

theorem Recordable.wholeOrSelf (h : c.Recordable) : c.wholeOrSelf.Recordable := by
  rw [Cell.wholeOrSelf]
  cases c.real.whole? with
  | none => exact h
  | some n => exact .of_numeric rfl rfl rfl

theorem applyNumericAffinity_cases (c : Cell) :
    c.applyNumericAffinity true = c ∨ ∃ w f, f.numeric = true ∧ f.undefined = c.flags.undefined ∧
      f.zero = c.flags.zero ∧ f.term = c.flags.term ∧
      (c.applyNumericAffinity true = { c with payload := w, flags := f } ∨
        c.applyNumericAffinity true = ({ c with payload := w, flags := f } : Cell).wholeOrSelf) := by
  rw [applyNumericAffinity]
  dsimp only
  split
  · split
    · exact .inr ⟨_, { c.flags with int := true }, rfl, rfl, rfl, rfl, .inl rfl⟩
    · refine .inr ⟨c.readReal.value.bits, { c.flags with real := true }, Bool.or_true _, rfl, rfl, rfl, .inr ?_⟩
      rw [if_pos rfl, integerAffinity_eq]
  · exact .inl rfl

theorem retains_wholeOrSelf (c : Cell) : c.Retains c.wholeOrSelf := by
  obtain ⟨hdata, hterm, hown⟩ := c.string_wholeOrSelf
  refine ⟨hdata, hterm, hown, ?_⟩
  rw [wholeOrSelf]
  cases c.real.whole? with
  | none => exact id
  | some n => exact fun hz => absurd hz Bool.false_ne_true

theorem retains_applyNumericAffinity (c : Cell) : c.Retains (c.applyNumericAffinity true) := by
  obtain heq | ⟨w, f, -, -, hzero, hterm, heq | heq⟩ := c.applyNumericAffinity_cases
  · rw [heq]
    exact .refl c
  · rw [heq]
    exact ⟨rfl, hterm, rfl, fun hz => hzero ▸ hz⟩
  · rw [heq]
    have hkept := retains_wholeOrSelf { c with payload := w, flags := f }
    exact ⟨hkept.data, hkept.term.trans hterm, hkept.own, fun hz => hzero ▸ hkept.zero hz⟩

theorem affine_cases (h : c.affine name aff = .ok d) :
    d = c ∨ d = c.wholeOrSelf ∨ (c.flags.str = true ∧ c.flags.numeric = false ∧ d = c.applyNumericAffinity true) ∨
      aff = .text ∧ c.flags.str = false ∧ c.flags.numeric = true ∧ d = c.stringify name true := by
  rw [affine] at h
  split at h
  · split at h
    · cases h
      exact .inl rfl
    split at h
    · cases h
      rename_i hnumber hstr
      exact .inr (.inr (.inl ⟨hstr, Bool.eq_false_iff.mpr hnumber, rfl⟩))
    split at h
    · cases h
      exact .inr (.inl rfl)
    · cases h
  · rename_i hnumeric
    cases h
    rw [applyAffinity, if_neg hnumeric]
    split
    · rename_i hcond
      simp only [Bool.and_eq_true, decide_eq_true_eq, Bool.not_eq_true'] at hcond
      exact .inr (.inr (.inr ⟨hcond.1.1, hcond.1.2, hcond.2, rfl⟩))
    · exact .inl rfl

theorem stringify_owner (name : Nat) (c : Cell) :
    ∃ (own : Nat) (text : Bytes), (c.stringify name true).own = some own ∧ (c.own = some own ∨ own = name) ∧
      (c.stringify name true).data = some ⟨own, text⟩ ∧ (c.stringify name true).size = text.length ∧
      text.length ≤ 80 := by
  have hgrow : ∃ own bytes, (c.grow name 32 false).own = some own ∧ (c.own = some own ∨ own = name) ∧
      (c.grow name 32 false).data = some ⟨own, bytes⟩ := by
    simp only [grow]
    cases c.own with
    | none => exact ⟨name, _, rfl, .inr rfl, rfl⟩
    | some own =>
      dsimp only
      split
      · exact ⟨name, _, rfl, .inr rfl, rfl⟩
      · exact ⟨own, _, rfl, .inl rfl, rfl⟩
  obtain ⟨own, bytes, hown, howner, hdata⟩ := hgrow
  have hresize : (c.clearAndResize name 32).own = some own ∧ (c.clearAndResize name 32).data = some ⟨own, bytes⟩ := by
    rw [clearAndResize]
    split <;> exact ⟨hown, hdata⟩
  refine ⟨own, if c.flags.int then Decimal.ofInt c.int else Decimal.ofReal c.real, hresize.1, howner, ?_, rfl, ?_⟩
  · rw [stringify]
    dsimp only
    rw [hresize.2]
    rfl
  · split
    · exact Decimal.length_ofInt_le (fitsWord_wordToInt _)
    · exact (Decimal.length_ofReal_le _).trans (by decide)

theorem undefined_stringify (h : c.flags.undefined = false) (name : Nat) :
    (c.stringify name true).flags.undefined = false := by
  simp only [stringify, clearAndResize]
  split
  · rw [flags_grow]
    exact h
  · rfl

theorem Recordable.affine (h : c.Recordable) (hd : c.affine name aff = .ok d) : d.Recordable := by
  obtain rfl | rfl | ⟨hstr, hnumeric, rfl⟩ | ⟨-, hstr, hnumeric, rfl⟩ := affine_cases hd
  · exact h
  · exact h.wholeOrSelf
  · have hkind : c.flags.kind ≠ .blob := by
      obtain ⟨hk, -⟩ | ⟨hk, -⟩ | ⟨hk, -⟩ | ⟨hk, -⟩ := c.flags.kind_cases <;> rw [hk] <;> simp [hstr]
    obtain heq | ⟨w, f, hf, hdefined, hzero, -, heq | heq⟩ := c.applyNumericAffinity_cases
    · rw [heq]
      exact h
    · rw [heq]
      exact .of_numeric (hdefined.trans h.defined) (hzero.trans (h.zero_of_kind hkind)) hf
    · rw [heq]
      exact Recordable.wholeOrSelf (.of_numeric (hdefined.trans h.defined) (hzero.trans (h.zero_of_kind hkind)) hf)
  · have hzero : c.flags.zero = false := by
      refine h.zero_of_kind fun hk => ?_
      rw [Flags.numeric, Bool.or_eq_true] at hnumeric
      obtain ⟨hkind, -⟩ | ⟨hkind, -⟩ | ⟨hkind, -⟩ | ⟨-, -, hint, hreal⟩ := c.flags.kind_cases
      · rw [hk] at hkind
        cases hkind
      · rw [hk] at hkind
        cases hkind
      · rw [hk] at hkind
        cases hkind
      · rw [hint, hreal] at hnumeric
        simp at hnumeric
    obtain ⟨own, text, -, -, hdata, hsize, hshort⟩ := c.stringify_owner name
    have hzero' := (c.flags_stringify name).2.2.2 hzero
    refine ⟨undefined_stringify h.defined name, fun hz => ?_, fun _ => ⟨?_, ?_⟩⟩
    · rw [hzero'] at hz
      cases hz
    · rw [Content.bytes, hdata, hsize]
      exact List.length_take.trans (Nat.min_self _)
    · rw [hsize, hzero', if_neg Bool.false_ne_true]
      omega

end Cell

namespace Bank

variable {b b' : Bank} {P : Nat → Fact → Cell → Prop} {r out : Nat} {S W : Nat → Prop} {c : Cell} {aff : Affinity}

theorem Separate.affine (h : b.Separate out S W) (hr : S r) (hlt : r < b.cells.size)
    (hc : (b.cellAt r).affine b.fresh aff = .ok c) (hb : b.Became r c b')
    (hW : aff = .text → (b.cellAt r).flags.str = false → (b.cellAt r).flags.numeric = true → W r) :
    b'.Separate out S W ∧ ∀ j, S j → j ≠ r → b'.cellAt j = b.cellAt j := by
  have hkept (hretains : (b.cellAt r).Retains c) :
      b'.Separate out S W ∧ ∀ j, S j → j ≠ r → b'.cellAt j = b.cellAt j := by
    obtain ⟨hs, hother⟩ := h.kept hlt hb hretains
    exact ⟨hs, fun j _ => hother j⟩
  obtain rfl | rfl | ⟨-, -, rfl⟩ | ⟨htext, hstr, hnumeric, rfl⟩ := Cell.affine_cases hc
  · exact hkept (.refl _)
  · exact hkept (Cell.retains_wholeOrSelf _)
  · exact hkept (Cell.retains_applyNumericAffinity _)
  · obtain ⟨own, text, hown, howner, hdata, -, -⟩ := (b.cellAt r).stringify_owner b.fresh
    refine h.rebuilt hr (hW htext hstr hnumeric) hlt hb hown howner fun d hd => ?_
    rw [hdata] at hd
    cases hd
    rfl

theorem Heeds.affinities_run (h : b.Heeds P) (hP : ∀ j, Fact.Law (P j)) (hfair : ∀ j f d, P j f d → f.Fair d)
    {regs : List Int} (htrue : ∀ i ∈ regs, ∀ f d, P i.toNat f d → f.True d) (hs : b.Separate out S W)
    (hf : b.Fields S regs) (hrow : ∀ i ∈ regs, (b.cellAt i.toNat).flags.rowSet = false)
    (hW : ∀ i ∈ regs, aff = .text → (b.cellAt i.toNat).flags.str = false →
      (b.cellAt i.toNat).flags.numeric = true → W i.toNat)
    (hrun : (forM regs fun i => do applyAffinity (← register i) aff.code) b = .ok () b') :
    b'.Obeys Fact.Fair ∧ b'.Separate out S W ∧ b'.Fields S regs ∧ b'.reach = b.reach ∧
      ∀ j, S j → (∀ i ∈ regs, i.toNat ≠ j) → b'.cellAt j = b.cellAt j := by
  induction regs generalizing b P with
  | nil =>
    cases hrun
    obtain ⟨t, hk, hreach, ht⟩ := h
    exact ⟨⟨t, hk, hreach, fun j hj => hfair j _ _ (ht j hj)⟩, hs, hf, rfl, fun _ _ _ => rfl⟩
  | cons i regs ih =>
    obtain ⟨h0, hi⟩ := hf.inside i List.mem_cons_self
    have hr : i.toNat < b.reach := by omega
    have hS := hf.among i List.mem_cons_self
    have hlt : i.toNat < b.cells.size := h.lt_size hr
    rw [List.forM_cons, bind_assoc, bind_of_ok (register_run h0 hi)] at hrun
    obtain ⟨c, b₁, hc, hrun₁, hbecame, h₁⟩ | ⟨e, t, l, -, hrun₁⟩ :=
      h.applyAffinity_run hP hr (fun f => htrue i List.mem_cons_self f _) (hrow i List.mem_cons_self) aff
    · rw [bind_of_ok hrun₁] at hrun
      obtain ⟨hs₁, hother₁⟩ := hs.affine hS hlt hc hbecame (hW i List.mem_cons_self)
      obtain ⟨hf₁, -⟩ := hf.tail hbecame.reach hother₁
      have hsame (j : Int) (hj : j ∈ regs) : b₁.cellAt j.toNat = b.cellAt j.toNat :=
        hother₁ j.toNat (hf.among j (List.mem_cons_of_mem i hj)) (hf.ne_head j hj)
      obtain ⟨h', hs', hf', hreach, hother⟩ := ih h₁ (law_update hP Fact.law_fair i.toNat)
        (fun j f d hfd => by
          by_cases hj : j = i.toNat
          · rwa [hj, Function.update_self] at hfd
          · rw [Function.update_of_ne hj] at hfd
            exact hfair j f d hfd)
        (fun j hj f d hfd => by
          rw [Function.update_of_ne (hf.ne_head j hj)] at hfd
          exact htrue j (List.mem_cons_of_mem i hj) f d hfd)
        hs₁ hf₁ (fun j hj => hsame j hj ▸ hrow j (List.mem_cons_of_mem i hj))
        (fun j hj => hsame j hj ▸ hW j (List.mem_cons_of_mem i hj)) hrun
      refine ⟨h', hs', ⟨hf.nodup, fun j hj => ?_, hf.among, fun j hj => ?_⟩, hreach.trans hbecame.reach,
        fun j hj hne => ?_⟩
      · rw [hreach, hbecame.reach]
        exact hf.inside j hj
      · obtain rfl | hj := List.mem_cons.mp hj
        · rw [hother j.toNat hS hf.ne_head, hbecame.self hlt]
          exact (hf.recordable j List.mem_cons_self).affine hc
        · exact hf'.recordable j hj
      · rw [hother j hj fun k hk => hne k (List.mem_cons_of_mem i hk),
          hother₁ j hj (Ne.symm (hne i List.mem_cons_self))]
    · rw [bind_of_error hrun₁] at hrun
      cases hrun

end Bank

namespace Cell

theorem real_of_fullValue {c : Cell} {x : Double} (h : c.fullValue = .real x) : c.real = x := by
  rw [fullValue, value] at h
  split at h
  · cases h
  · split at h
    all_goals cases h
    rfl

theorem Recordable.rawValue_of_zeros {c : Cell} (h : c.Recordable) (hzeros : c.zeros = 0) : c.rawValue = c.fullValue := by
  cases hz : c.flags.zero with
  | false => rw [rawValue_of_not_zero hz, fullValue_of_not_zero hz]
  | true =>
    obtain ⟨hbytes, -⟩ := h.string (.inr (h.counted hz).1)
    have hdata : c.bytes = ((c.data.map (·.bytes)).getD []).take c.size := by
      rw [Content.bytes]
      cases c.data with
      | none => rw [Option.map_none, Option.getD_none, List.take_nil]
      | some d => rfl
    have hlen : c.size ≤ ((c.data.map (·.bytes)).getD []).length := by
      rw [hdata, List.length_take] at hbytes
      omega
    rw [rawValue, fullValue, if_pos hz, if_pos hz, hzeros]
    dsimp only
    rw [Int.toNat_zero, Nat.add_zero, Nat.sub_eq_zero_of_le hlen, List.replicate_zero, List.append_nil,
      List.append_nil, hdata]

end Cell

namespace Tracked.Layout

variable {format : Int} {cells : List Cell}

theorem missing_nonneg (format : Int) (l : Layout) (hc : ∀ c ∈ cells, c.Recordable) : 0 ≤ l.missing format cells := by
  induction cells generalizing l with
  | nil => exact Int.le_refl 0
  | cons c cells ih =>
    have htail := ih (l.lay format c) fun d hd => hc d (List.mem_cons_of_mem c hd)
    rw [missing]
    split
    · rename_i hearly
      have := ((hc c List.mem_cons_self).counted (Bool.and_eq_true _ _ ▸ hearly).1).2
      omega
    · omega

/-- If nothing is taken off, everything is written as it is, and no zeros are left to count. -/
theorem sources_of_missing {l : Layout} (hl : l.zeros = 0) (hc : ∀ c ∈ cells, c.Recordable)
    (h : l.missing format cells = 0) :
    l.sources format cells = cells.map Cell.fullValue ∧ (cells.foldl (lay format) l).zeros = 0 := by
  induction cells generalizing l with
  | nil => exact ⟨rfl, hl⟩
  | cons c cells ih =>
    have hc' : ∀ d ∈ cells, d.Recordable := fun d hd => hc d (List.mem_cons_of_mem c hd)
    have htail := missing_nonneg format (l.lay format c) hc'
    rw [missing] at h
    rw [sources, List.map_cons, List.foldl_cons]
    by_cases hearly : l.isEarly c = true
    · obtain ⟨-, hcount⟩ := (hc c List.mem_cons_self).counted (Bool.and_eq_true _ _ ▸ hearly).1
      rw [if_pos hearly] at h ⊢
      have hzeros : c.zeros = 0 := by omega
      have hnext : (l.lay format c).zeros = 0 := by
        show (if l.isEarly c then 2 * c.zeros else l.zeros) = 0
        rw [if_pos hearly, hzeros]
        rfl
      obtain ⟨hsources, hlast⟩ := ih hnext hc' (by omega)
      rw [hsources, (hc c List.mem_cons_self).rawValue_of_zeros hzeros]
      exact ⟨rfl, hlast⟩
    · rw [if_neg hearly] at h ⊢
      have hnext : (l.lay format c).zeros = 0 := by
        show (if l.isEarly c then 2 * c.zeros else l.zeros) = 0
        rw [if_neg hearly, hl]
      obtain ⟨hsources, hlast⟩ := ih hnext hc' (by omega)
      rw [hsources]
      exact ⟨rfl, hlast⟩

theorem missing_of_not_zero (format : Int) (l : Layout) (hc : ∀ c ∈ cells, c.flags.zero = false) : l.missing format cells = 0 := by
  induction cells generalizing l with
  | nil => rfl
  | cons c cells ih =>
    rw [missing, isEarly, hc c List.mem_cons_self, Bool.false_and, if_neg Bool.false_ne_true,
      ih _ fun d hd => hc d (List.mem_cons_of_mem c hd)]
    rfl

end Tracked.Layout

namespace Bank

variable {b : Bank} {out : Nat} {S W : Nat → Prop} {known : Nat → Bool}

def knowsReal (b : Bank) (r : Nat) : Bool := (b.holder.current?.map fun t => (t.fact r).real?.isSome).getD false

theorem Obeys.reads (h : b.Obeys Fact.Fair) : b.Reads b.knowsReal := by
  obtain ⟨t, hk, hreach, ht⟩ := h
  refine ⟨t, hk, hreach, fun r hr => ⟨ht r hr, fun hsome => ?_⟩⟩
  rw [knowsReal, hk.current, Option.map_some, Option.getD_some, hsome]

theorem Written.type_eq {regs : List Int} {sources values : List Value} (h : Written known regs sources values)
    (hlength : regs.length = sources.length) (format : Int) :
    (values.map fun v => (Record.fieldFor format v).type) = sources.map fun v => (Record.fieldFor format v).type := by
  induction regs generalizing sources values with
  | nil =>
    cases h
    rw [List.length_eq_zero_iff.mp hlength.symm]
  | cons r regs ih =>
    cases sources with
    | nil => cases hlength
    | cons v sources =>
      rw [Written, List.zip_cons_cons] at h
      cases h with
      | cons hkept htail => rw [List.map_cons, List.map_cons, hkept.type, ih htail (by simpa using hlength)]

theorem Written.eq_sources {regs : List Int} {sources values : List Value} (h : Written known regs sources values)
    (hlength : regs.length = sources.length)
    (hzero : ∀ p ∈ regs.zip sources, known p.1.toNat = true → ∀ x, p.2 = .real x → x.isZero = false) :
    values = sources := by
  induction regs generalizing sources values with
  | nil =>
    cases h
    exact (List.length_eq_zero_iff.mp hlength.symm).symm
  | cons r regs ih =>
    cases sources with
    | nil => cases hlength
    | cons v sources =>
      rw [Written, List.zip_cons_cons] at h
      cases h with
      | cons hkept htail =>
        rw [ih htail (by simpa using hlength) fun p hp => hzero p (List.mem_cons_of_mem _ hp)]
        obtain rfl | ⟨x, y, rfl, rfl, rfl | ⟨hknown, hx, -⟩⟩ := hkept
        · rfl
        · rfl
        · rw [hzero (r, .real x) List.mem_cons_self hknown x rfl] at hx
          cases hx

end Bank

namespace Tracked

def letter (aff : Affinity) : UInt8 := UInt8.ofNat aff.code

/-- The instruction that gives the registers of a record the affinity `aff`. -/
def uniform (aff : Affinity) (i : Instruction) : Instruction :=
  { i with p4 := .bytes (List.replicate i.p2.toNat (letter aff)) }

/-- The instruction for a record of registers as they are. -/
def plain (i : Instruction) : Instruction := { i with p4 := .none }

theorem letter_code (aff : Affinity) : (letter aff).toNat = aff.code ∧ letter aff ≠ 0 := by
  cases aff <;> decide

theorem text?_uniform (aff : Affinity) (i : Instruction) :
    (uniform aff i).p4.text? = some (List.replicate i.p2.toNat (letter aff)) := by
  show some (List.takeWhile _ _) = _
  rw [List.takeWhile_replicate, if_pos (bne_iff_ne.mpr (letter_code aff).2)]

theorem affinity_of_same {i : Instruction} {aff : Affinity} {affs : List Affinity} (hsame : ∀ a ∈ affs, a = aff)
    (hp4 : i.p4.text? = some ((aff :: affs).map letter)) (hn : (aff :: affs).length = i.p2) :
    affinity i = affinity (uniform aff i) := by
  have hall : aff :: affs = List.replicate i.p2.toNat aff := by
    rw [← hn, Int.toNat_natCast]
    exact List.eq_replicate_of_mem fun a ha => (List.mem_cons.mp ha).elim id (hsame a)
  rw [affinity, affinity, text?_uniform, hp4, hall, List.map_replicate]
  rfl

theorem affinity_uniform (aff : Affinity) {i : Instruction} (hn : 0 ≤ i.p2) :
    affinity (uniform aff i) =
      (forM (Instruction.span i.p1 i.p2) fun r => do Bank.applyAffinity (← Bank.register r) aff.code) := by
  have hcode := (letter_code aff).1
  have hzip : (List.replicate i.p2.toNat (letter aff)).zipIdx = (List.range i.p2.toNat).map fun k => (letter aff, k) := by
    refine List.ext_getElem (by simp) fun k hk _ => ?_
    simp
  rw [affinity, text?_uniform]
  show (do
    check ((List.replicate i.p2.toNat (letter aff)).length == i.p2)
    for x in (List.replicate i.p2.toNat (letter aff)).zipIdx do
      Bank.applyAffinity (← Bank.register (i.p1 + x.2)) x.1.toNat : BankM Unit) = _
  rw [hzip, List.length_replicate, Int.toNat_of_nonneg hn, beq_self_eq_true]
  have hloop (ks : List Nat) :
      (forIn (ks.map fun k => (letter aff, k)) PUnit.unit fun x _ => do
        Bank.applyAffinity (← Bank.register (i.p1 + x.2)) x.1.toNat
        pure (ForInStep.yield PUnit.unit)) =
      (forM (ks.map fun (k : Nat) => i.p1 + k) fun r => do
        Bank.applyAffinity (← Bank.register r) aff.code : BankM PUnit) := by
    rw [← forIn_eq_forM, List.forIn_map, List.forIn_map, ← hcode]
    simp only [bind_assoc]
  exact (bind_pure _).trans (hloop (List.range i.p2.toNat))

/-- Making a record gives all registers the first affinity before it is made of them. -/
theorem makeRecord_eq {b : Bank} {i : Instruction} {aff : Affinity} {affs : List Affinity}
    (hp4 : i.p4.text? = some ((aff :: affs).map letter)) (hn : 0 ≤ i.p2) (hout : 0 ≤ i.p3 ∧ i.p3 < b.reach)
    (format : Int) :
    makeRecord format i b = (do affinity (uniform aff i); makeRecord format (plain i)) b := by
  have hreach := (Machine.abiding_affinity (uniform aff i) b).reach
  have hloop : (forIn (Instruction.span i.p1 i.p2) PUnit.unit fun r _ => do
      Bank.applyAffinity (← Bank.register r) aff.code
      pure (ForInStep.yield PUnit.unit)) = affinity (uniform aff i) := by
    rw [affinity_uniform aff hn, ← forIn_eq_forM]
    simp only [bind_assoc]
  rw [makeRecord, bind_of_ok (Bank.register_run hout.1 hout.2), hp4]
  simp only [List.map_cons, (letter_code aff).1]
  rw [hloop]
  cases hrun : affinity (uniform aff i) b with
  | error e b₁ => rw [bind_of_error hrun, bind_of_error hrun]
  | ok _ b₁ =>
    rw [after_of_ok hrun] at hreach
    have hreg : Bank.register (plain i).p3 b₁ = .ok i.p3.toNat b₁ := Bank.register_run hout.1 (hreach ▸ hout.2)
    rw [bind_of_ok hrun, bind_of_ok hrun, makeRecord, bind_of_ok hreg]
    rfl

end Tracked

/-- The register is one of the `p2` registers from `p1` on. -/
def Instruction.Covers (i : Instruction) (r : Nat) : Prop := i.p1 ≤ r ∧ r < i.p1 + i.p2

theorem Instruction.mem_span {i : Instruction} {r : Int} (h : r ∈ span i.p1 i.p2) : i.p1 ≤ r ∧ r < i.p1 + i.p2 := by
  obtain ⟨k, hk, rfl⟩ := List.mem_map.mp h
  have := List.mem_range.mp hk
  omega

theorem Instruction.nodup_span (r n : Int) : (span r n).Nodup :=
  List.Nodup.map (fun _ _ h => by simpa using h) List.nodup_range

namespace Bank

variable {b : Bank} {out : Nat} {S W : Nat → Prop} {known : Nat → Bool}

theorem Reads.expanded_run (h : b.Reads known) {i : Instruction} (hout : 0 ≤ i.p3 ∧ i.p3 < b.reach)
    (hs : b.Separate i.p3.toNat S W) {regs : List Int} (hregs : Instruction.span i.p1 i.p2 = regs) (hf : b.Fields S regs)
    (hp4 : i.p4.text? = none) (hcount : i.p2 ≤ 2147483647) (format : Int) :
    ∃ values b', Written known regs (regs.map fun r => (b.cellAt r.toNat).fullValue) values ∧
      (do forM regs fun r => do expandBlob (← register r)
          Tracked.makeRecord format i) b = .ok () b' ∧
      (b'.cellAt i.p3.toNat).Stores (Record.encode (values.map (Record.fieldFor format)))
        (Record.encode (values.map (Record.fieldFor format))).length 0 := by
  obtain ⟨b₁, hrun₁, h₁, hs₁, hf₁, hreach, hexpanded, -⟩ := h.expandAll_run hs hf
  obtain ⟨values, b', hwritten, hrun, hstores, hsize⟩ :=
    h₁.makeRecord_run (by rwa [hreach]) hs₁ hregs hf₁ hp4 hcount format rfl rfl
  have hzero : ∀ c ∈ regs.map fun r => b₁.cellAt r.toNat, c.flags.zero = false := by
    intro c hc
    obtain ⟨r, hr, rfl⟩ := List.mem_map.mp hc
    exact (hexpanded r hr).1
  have hrecordable : ∀ c ∈ regs.map fun r => b₁.cellAt r.toNat, c.Recordable := by
    intro c hc
    obtain ⟨r, hr, rfl⟩ := List.mem_map.mp hc
    exact hf₁.recordable r hr
  have hmissing := Tracked.Layout.missing_of_not_zero format {} hzero
  obtain ⟨hsources, hzeros⟩ := Tracked.Layout.sources_of_missing rfl hrecordable hmissing
  have hvalues : (regs.map fun r => b₁.cellAt r.toNat).map Cell.fullValue =
      regs.map fun r => (b.cellAt r.toNat).fullValue := by
    rw [List.map_map]
    exact List.map_congr_left fun r hr => (hexpanded r hr).2
  rw [hsources, hvalues] at hwritten
  rw [hmissing, Int.mul_zero, Int.sub_zero] at hsize
  rw [hzeros, hsize, Int.toNat_natCast] at hstores
  exact ⟨values, b', hwritten, (bind_of_ok hrun₁).trans hrun, hstores⟩

/-- The registers of an instruction can be stored in its register `p3`, once they have been given the affinity
`aff`: what is known about them is true, they hold values, and no string lies in a buffer of another register that
is written to. -/
structure Storable (b : Bank) (aff : Affinity) (i : Instruction) : Prop where
  known : b.Obeys Fact.True
  out : 0 ≤ i.p3 ∧ i.p3 < b.reach
  inside : 0 ≤ i.p1 ∧ i.p1 + i.p2 ≤ b.reach
  count : i.p2 ≤ 2147483647
  recordable : ∀ r, i.Covers r → (b.cellAt r).Recordable
  rowSet : ∀ r, i.Covers r → (b.cellAt r).flags.rowSet = false
  separate : b.Separate i.p3.toNat i.Covers fun w => w = i.p3.toNat ∨ i.Covers w ∧
    ((b.cellAt w).flags.zero = true ∨
      aff = .text ∧ (b.cellAt w).flags.str = false ∧ (b.cellAt w).flags.numeric = true)

theorem Storable.fields {aff : Affinity} {i : Instruction} (h : b.Storable aff i) :
    b.Fields i.Covers (Instruction.span i.p1 i.p2) := by
  have hcovers (r : Int) (hr : r ∈ Instruction.span i.p1 i.p2) : 0 ≤ r ∧ r < b.reach ∧ i.Covers r.toNat := by
    have hmem := Instruction.mem_span hr
    have := h.inside
    refine ⟨by omega, by omega, ?_⟩
    show i.p1 ≤ r.toNat ∧ _
    omega
  exact ⟨Instruction.nodup_span _ _, fun r hr => ⟨(hcovers r hr).1, (hcovers r hr).2.1⟩, fun r hr => (hcovers r hr).2.2,
    fun r hr => h.recordable _ (hcovers r hr).2.2⟩

theorem Storable.affinity_run {aff : Affinity} {i : Instruction} (h : b.Storable aff i) (hn : 0 ≤ i.p2) {b₁ : Bank}
    (hrun : Tracked.affinity (Tracked.uniform aff i) b = .ok () b₁) :
    b₁.Reads b₁.knowsReal ∧ b₁.reach = b.reach ∧ b₁.Fields i.Covers (Instruction.span i.p1 i.p2) ∧
      ∃ W, b₁.Separate i.p3.toNat i.Covers W := by
  rw [Tracked.affinity_uniform aff hn] at hrun
  have hf := h.fields
  have hheeds : b.Heeds fun _ => Fact.True := h.known
  obtain ⟨hobeys, hs, hf₁, hreach, -⟩ := hheeds.affinities_run (fun _ => Fact.law_true) (fun _ _ _ => Fact.True.fair)
    (fun _ _ _ _ => id) h.separate hf (fun r hr => h.rowSet _ (hf.among r hr))
    (fun r hr htext hstr hnumeric => .inr ⟨hf.among r hr, .inr ⟨htext, hstr, hnumeric⟩⟩) hrun
  exact ⟨hobeys.reads, hreach, hf₁, _, hs⟩

end Bank

theorem Record.length_encode_congr {format : Int} {vs ws : List Value}
    (h : (vs.map fun v => (fieldFor format v).type) = ws.map fun w => (fieldFor format w).type) :
    (encode (vs.map (fieldFor format))).length = (encode (ws.map (fieldFor format))).length := by
  obtain ⟨-, htypes, hlength⟩ := field_congr h
  rw [encode_eq, encode_eq, List.length_append, List.length_append, List.length_append, List.length_append, hlength,
    header, header, htypes]

namespace Bank

variable {b : Bank}

/-- A blob of three counted zeros in front of the integer nine. -/
def zerosFirst : Bank :=
  ofCells #[{}, { flags := { blob := true, zero := true }, payload := Content.withZeros 0 3 },
    { flags := .onlyInt, payload := intToWord 9 }, {}] true true 0

/-- The record of both, with an affinity for each. -/
def zerosFirstRecord : Instruction where
  op := .makeRecord
  p1 := 1
  p2 := 2
  p3 := 3
  p4 := .bytes [Tracked.letter .none, Tracked.letter .integer]
  p5 := 0

theorem storable_zerosFirst : zerosFirst.Storable .none zerosFirstRecord := by
  have hcovers (r : Nat) (hr : zerosFirstRecord.Covers r) : r = 1 ∨ r = 2 := by
    obtain ⟨hlow, hhigh⟩ : (1 : Int) ≤ r ∧ (r : Int) < 1 + 2 := hr
    omega
  have hbare (r : Nat) : (zerosFirst.cellAt r).own = none ∧ (zerosFirst.cellAt r).data = none := by
    match r with
    | 0 | 1 | 2 | 3 => decide
    | k + 4 => exact ⟨rfl, rfl⟩
  refine ⟨(trusts_ofCells _ true 0).obeys, by decide, by decide, by decide, fun r hr => ?_, fun r hr => ?_, ?_⟩
  · obtain rfl | rfl := hcovers r hr
    · exact ⟨by decide, by decide, by decide⟩
    · exact ⟨by decide, by decide, by decide⟩
  · obtain rfl | rfl := hcovers r hr <;> decide
  · refine ⟨?_, .inl rfl, fun hr hz => .inr ⟨hr, .inl hz⟩, fun {w r} _ _ _ d hd => ?_, fun {w w' n} _ _ _ hn => ?_,
      fun {w n} _ hn => ?_, fun {r d} _ hd => ?_⟩
    · exact fun hout => absurd (hcovers _ hout) (by decide)
    · rw [(hbare r).2] at hd
      cases hd
    · rw [(hbare w).1] at hn
      cases hn
    · rw [(hbare w).1] at hn
      cases hn
    · rw [(hbare r).2] at hd
      cases hd

end Bank

end QueryMachine
