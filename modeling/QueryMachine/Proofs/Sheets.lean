import Mathlib
import QueryMachine.Knowledge.Sheet

/-!
What the operations on sheets do to the facts. A sheet from the ledger has the facts that were asked
for, except that a constant double may be any other one that compares equal to it.
-/

namespace QueryMachine

namespace Double

theorem isNaN_of_isFinite {x : Double} (h : x.isFinite = true) : x.isNaN = false := by
  simp only [isFinite, isNaN, decide_eq_true_eq, decide_eq_false_iff_not] at *
  omega

theorem isInf_of_isFinite {x : Double} (h : x.isFinite = true) : x.isInf = false := by
  simp only [isFinite, isInf, decide_eq_true_eq, beq_eq_false_iff_ne] at *
  omega

theorem key_eq_zero_iff (x : Double) : x.key = 0 ↔ x.magnitude = 0 := by
  unfold key
  split <;> omega

theorem scaled_mant_eq_zero_iff (x : Double) : x.scaled.mant = 0 ↔ x.magnitude = 0 := by
  have hidden : hiddenBit = 4503599627370496 := rfl
  simp only [scaled]
  split <;> simp only [hidden] at * <;> omega

theorem cmpInt_zero_iff (x : Double) : x.cmpInt 0 = .eq ↔ x.key = 0 := by
  rw [key_eq_zero_iff, ← scaled_mant_eq_zero_iff]
  simp only [cmpInt]
  split <;> split <;> simp

/-- Only the two zeros are different doubles at the same place of the order. -/
theorem eq_of_key_eq {x y : Double} (h : x.key = y.key) (hx : x.key ≠ 0) : x = y := by
  obtain ⟨x⟩ := x
  obtain ⟨y⟩ := y
  have sign : signBit = 9223372036854775808 := rfl
  have hxs : x.toNat < 18446744073709551616 := x.toNat_lt
  have hys : y.toNat < 18446744073709551616 := y.toNat_lt
  simp only [key, neg, magnitude, sign, decide_eq_true_eq] at h hx
  congr 1
  apply UInt64.toNat_inj.mp
  split at h <;> split at h <;> split at hx <;> omega

end Double

namespace Number

/-- Where a number of a sheet stands in the order of numbers. -/
def level : Number → Int
  | .int n => n
  | .real x => x.key

/-- The numbers that sheets hold: the zero that they start with, and finite doubles. -/
def Plain : Number → Prop
  | .int n => n = 0
  | .real x => x.isFinite = true

theorem real_eq_iff {a : Number} (ha : a.Plain) (x : Double) :
    (Number.real x).eq a = true ↔ x.isNaN = false ∧ x.key = a.level := by
  cases a with
  | int n =>
    simp only [Plain] at ha
    subst ha
    simp only [Number.eq, cmp?, level]
    by_cases hn : x.isNaN = true
    · simp [hn]
    · by_cases hi : x.isInf = true
      · have hk : x.key ≠ 0 := by
          rw [Ne, Double.key_eq_zero_iff]
          simp only [Double.isInf, beq_iff_eq] at hi
          rw [hi]
          decide
        cases x.neg <;> simp [hn, hi, hk]
      · simp [hn, hi, Double.cmpInt_zero_iff]
  | real y =>
    have hy := Double.isNaN_of_isFinite ha
    simp only [Number.eq, cmp?, level, hy]
    cases hx : x.isNaN <;> simp

theorem eq_iff_level {a b : Number} (ha : a.Plain) (hb : b.Plain) :
    a.eq b = true ↔ a.level = b.level := by
  cases a with
  | real x =>
    rw [real_eq_iff hb]
    simp [level, Double.isNaN_of_isFinite ha]
  | int n =>
    simp only [Plain] at ha
    subst ha
    cases b with
    | int m => simp [Number.eq, cmp?, level]
    | real y =>
      simp only [Number.eq, cmp?, level, Double.isNaN_of_isFinite hb, Double.isInf_of_isFinite hb]
      rw [show ((0 : Int) = y.key) ↔ y.cmpInt 0 = .eq by
        rw [Double.cmpInt_zero_iff]; exact eq_comm]
      cases y.cmpInt 0 <;> simp [Ordering.swap]

theorem mixable_of_plain {a : Number} (h : a.Plain) : ∃ n, Sheet.mixable a = .ok n := by
  cases a with
  | int n => exact ⟨n, rfl⟩
  | real x =>
    simp only [Plain] at h
    simp [Sheet.mixable, Double.trunc?, h]

end Number

namespace Fact

def Plain (f : Fact) : Prop := f.real.Plain

/-- Facts that say the same; a constant double may be another one that compares equal. -/
structure Like (a b : Fact) : Prop where
  flags : a.flags = b.flags
  known : a.known = b.known
  int : a.int = b.int
  level : a.real.level = b.real.level

theorem Like.refl (f : Fact) : f.Like f := ⟨rfl, rfl, rfl, rfl⟩

theorem Like.trans {a b c : Fact} (h : a.Like b) (k : b.Like c) : a.Like c :=
  ⟨h.flags.trans k.flags, h.known.trans k.known, h.int.trans k.int, h.level.trans k.level⟩

theorem same_iff {a b : Fact} (ha : a.Plain) (hb : b.Plain) : a.same b = true ↔ a.Like b := by
  simp only [same, Bool.and_eq_true, beq_iff_eq, Number.eq_iff_level ha hb]
  constructor
  · rintro ⟨⟨⟨hf, hk⟩, hi⟩, hr⟩
    exact ⟨hf, hk, hi, hr⟩
  · rintro ⟨hf, hk, hi, hr⟩
    exact ⟨⟨⟨hf, hk⟩, hi⟩, hr⟩

/-- What a fact says about the marks, the integer and the double of its cell. -/
def flags? (f : Fact) : Option Flags := if f.known.flags then some f.flags else none

def int? (f : Fact) : Option Int :=
  if f.isConstantInt then some f.int else if f.known.int then some 0 else none

def real? (f : Fact) : Option Number :=
  if f.isConstantReal then some f.real else if f.known.real then some (.real .zero) else none

theorem Like.flags?_eq {a b : Fact} (h : a.Like b) : a.flags? = b.flags? := by
  simp only [flags?, h.known, h.flags]

theorem Like.int?_eq {a b : Fact} (h : a.Like b) : a.int? = b.int? := by
  simp [int?, isConstantInt, h.known, h.int]

theorem Like.real?_level {a b : Fact} (h : a.Like b) :
    a.real?.map Number.level = b.real?.map Number.level := by
  have hc : a.isConstantReal = b.isConstantReal := by simp [isConstantReal, h.known]
  simp only [real?, hc, h.known]
  split
  · simp [h.level]
  · split <;> rfl

theorem Like.isSome_real? {a b : Fact} (h : a.Like b) : a.real?.isSome = b.real?.isSome := by
  have := congrArg Option.isSome h.real?_level
  simpa using this

theorem Plain.real? {f : Fact} (h : f.Plain) {x : Number} (hx : f.real? = some x) : x.Plain := by
  simp only [Fact.real?] at hx
  split at hx
  · cases hx
    exact h
  · split at hx
    · cases hx
      rfl
    · cases hx

/-! How facts change. -/

def noteFlags (flags : Flags) (f : Fact) : Fact :=
  { f with flags, known := { f.known with flags := true } }

def noteInt (n : Int) (f : Fact) : Fact :=
  { f with int := n, known := { f.known with int := true, constant := true } }

def noteReal (x : Number) (f : Fact) : Fact :=
  { f with real := x, known := { f.known with real := true, constant := true } }

def dropInt (f : Fact) : Fact :=
  { f with known := { f.known with int := false, constant := false } }

def dropReal (f : Fact) : Fact :=
  { f with known := { f.known with real := false, constant := false } }

def forget (f : Fact) : Fact :=
  if f.known.isNothing then f else { f with flags := .none, known := .nothing }

theorem forget_known (f : Fact) : f.forget.known = .nothing := by
  unfold forget
  split
  · rename_i h
    simpa [Known.isNothing] using h
  · rfl

end Fact

abbrev Likewise (xs ys : List Fact) : Prop := List.Forall₂ Fact.Like xs ys

theorem Likewise.refl (xs : List Fact) : Likewise xs xs := List.forall₂_same.mpr fun f _ => .refl f

theorem Likewise.trans {xs ys zs : List Fact} (h : Likewise xs ys) (k : Likewise ys zs) :
    Likewise xs zs := by
  induction h generalizing zs with
  | nil => exact k
  | cons hx _ ih =>
    cases k with
    | cons hy k => exact .cons (hx.trans hy) (ih k)

theorem Likewise.modify {xs ys : List Fact} (h : Likewise xs ys) (i : Nat) {g k : Fact → Fact}
    (hg : ∀ a b : Fact, a.Like b → (g a).Like (k b)) :
    Likewise (xs.modify i g) (ys.modify i k) := by
  induction h generalizing i with
  | nil => cases i <;> exact .nil
  | cons hx h ih =>
    cases i with
    | zero => exact .cons (hg _ _ hx) h
    | succ i => exact .cons hx (ih i)

theorem Likewise.getD {xs ys : List Fact} (h : Likewise xs ys) (i : Nat) :
    (xs.getD i {}).Like (ys.getD i {}) := by
  induction h generalizing i with
  | nil => exact .refl _
  | cons hx _ ih =>
    cases i with
    | zero => exact hx
    | succ i => exact ih i

def Ledger.Plain (l : Ledger) : Prop := ∀ s ∈ l.sheets, ∀ f ∈ s.facts, f.Plain

namespace Sheet

def Plain (s : Sheet) : Prop := ∀ f ∈ s.facts, f.Plain

theorem Plain.fact {s : Sheet} (h : s.Plain) (i : Nat) : (s.fact i).Plain := by
  unfold Sheet.fact
  rw [List.getD_eq_getElem?_getD]
  cases hi : s.facts[i]? with
  | none => rfl
  | some f => exact h f (List.mem_of_getElem? hi)

structure Shows (s : Sheet) (facts : List Fact) : Prop where
  plain : s.Plain
  like : Likewise s.facts facts

theorem Plain.shows {s : Sheet} (h : s.Plain) : s.Shows s.facts := ⟨h, .refl _⟩

theorem Shows.fact {s : Sheet} {facts : List Fact} (h : s.Shows facts) (i : Nat) :
    (s.fact i).Like (facts.getD i {}) := h.like.getD i

theorem Shows.trans {s : Sheet} {xs ys : List Fact} (h : s.Shows xs) (k : Likewise xs ys) :
    s.Shows ys := ⟨h.plain, h.like.trans k⟩

/-- The check sum exists, because nothing on the sheet is infinite. -/
theorem Plain.hash {s : Sheet} (h : s.Plain) : ∃ n, s.hash = .ok n := by
  have go : ∀ (facts : List Fact) (x : Int), (∀ f ∈ facts, f.Plain) →
      ∃ n, facts.foldlM (fun x f => return mix x (← mixable f.real)) x = Except.ok (ε := Fault) n := by
    intro facts
    induction facts with
    | nil => exact fun x _ => ⟨x, rfl⟩
    | cons f facts ih =>
      intro x hf
      obtain ⟨n, hn⟩ := Number.mixable_of_plain (hf f List.mem_cons_self)
      simp only [List.foldlM_cons, hn]
      exact ih (mix x n) fun g hg => hf g (List.mem_cons_of_mem f hg)
  exact go s.facts _ h

/-- The operation answers a sheet with these facts and keeps the ledger plain. -/
def Yields (x : LedgerM Sheet) (facts : List Fact) : Prop :=
  ∀ l : Ledger, l.Plain → ∃ s l', x l = .ok s l' ∧ l'.Plain ∧ s.Shows facts

theorem Yields.pure {s : Sheet} {facts : List Fact} (h : s.Shows facts) :
    Yields (Pure.pure s) facts := fun l hl => ⟨s, l, rfl, hl, h⟩

theorem Yields.bind {x : LedgerM Sheet} {f : Sheet → LedgerM Sheet} {xs ys : List Fact}
    (hx : Yields x xs) (hf : ∀ s, s.Shows xs → Yields (f s) ys) : Yields (x >>= f) ys := by
  intro l hl
  obtain ⟨s, l', hs, hl', hsx⟩ := hx l hl
  obtain ⟨t, l'', ht, hl'', hty⟩ := hf s hsx l' hl'
  refine ⟨t, l'', ?_, hl'', hty⟩
  simp only [Bind.bind, EStateM.bind, hs]
  exact ht

theorem Yields.trans {x : LedgerM Sheet} {xs ys : List Fact} (h : Yields x xs)
    (k : Likewise xs ys) : Yields x ys := by
  intro l hl
  obtain ⟨s, l', hs, hl', hsx⟩ := h l hl
  exact ⟨s, l', hs, hl', hsx.trans k⟩

theorem same_facts_iff {xs ys : List Fact} (hx : ∀ f ∈ xs, f.Plain) (hy : ∀ f ∈ ys, f.Plain) :
    (xs.length == ys.length && (xs.zip ys).all fun (x, y) => x.same y) = true ↔ Likewise xs ys := by
  induction xs generalizing ys with
  | nil => cases ys <;> simp
  | cons x xs ih =>
    cases ys with
    | nil => simp
    | cons y ys =>
      have tail : _ ↔ List.Forall₂ Fact.Like xs ys :=
        ih (fun f hf => hx f (List.mem_cons_of_mem x hf)) (fun f hf => hy f (List.mem_cons_of_mem y hf))
      have head := Fact.same_iff (hx x List.mem_cons_self) (hy y List.mem_cons_self)
      rw [Likewise, List.forall₂_cons, ← head, ← tail]
      simp only [List.length_cons, List.zip_cons_cons, List.all_cons, Bool.and_eq_true, beq_iff_eq]
      constructor
      · rintro ⟨hl, hxy, h⟩
        exact ⟨hxy, by omega, h⟩
      · rintro ⟨hxy, hl, h⟩
        exact ⟨by omega, hxy, h⟩

theorem same_iff {s t : Sheet} (hs : s.Plain) (ht : t.Plain) :
    s.same t = true ↔ Likewise s.facts t.facts := same_facts_iff hs ht

theorem unique_yields {s : Sheet} (h : s.Plain) : Yields s.unique s.facts := by
  intro l hl
  obtain ⟨n, hn⟩ := h.hash
  simp only [unique, hn]
  cases hfind : l.sheets.find? (·.same s) with
  | some old =>
    have hold : old.Plain := hl old (List.mem_of_find?_eq_some hfind)
    have hsame : old.same s = true := by simpa using List.find?_some hfind
    refine ⟨old, l, ?_, hl, hold, (same_iff hold h).mp hsame⟩
    simp [modifyGet, MonadStateOf.modifyGet, EStateM.modifyGet, hfind]
  | none =>
    refine ⟨s, { l with sheets := l.sheets ++ [s] }, ?_, ?_, h.shows⟩
    · simp [modifyGet, MonadStateOf.modifyGet, EStateM.modifyGet, hfind]
    · intro t ht
      rcases List.mem_append.mp ht with ht | ht
      · exact hl t ht
      · rw [List.mem_singleton.mp ht]
        exact h

theorem facts_set (s : Sheet) (i : Nat) (g : Fact → Fact) :
    s.facts.set i (g (s.fact i)) = s.facts.modify i g := by
  apply List.ext_getElem?
  intro j
  simp only [List.getElem?_set, List.getElem?_modify, Sheet.fact, List.getD_eq_getElem?_getD]
  by_cases hij : i = j
  · subst hij
    by_cases hi : i < s.facts.length
    · simp [hi]
    · simp [hi]
  · simp [hij]

@[simp] theorem getD_blank (n j : Nat) : (List.replicate n ({} : Fact)).getD j {} = {} := by
  rw [List.getD_eq_getElem?_getD, List.getElem?_replicate]
  split <;> rfl

theorem getD_modify {s : Sheet} {i : Nat} (hi : i < s.facts.length) (g : Fact → Fact) (j : Nat) :
    (s.facts.modify i g).getD j {} = if i = j then g (s.fact i) else s.fact j := by
  simp only [Sheet.fact, List.getD_eq_getElem?_getD, List.getElem?_modify]
  split
  · rename_i hij
    subst hij
    simp [hi]
  · simp

theorem change_yields {s : Sheet} (h : s.Plain) (i : Nat) {g : Fact → Fact}
    (hg : (g (s.fact i)).Plain) : Yields (s.change i (g (s.fact i))) (s.facts.modify i g) := by
  rw [← facts_set]
  intro l hl
  have copied : Plain { serial := l.next, facts := s.facts.set i (g (s.fact i)) } := by
    intro f hf
    rcases List.mem_or_eq_of_mem_set hf with hf | rfl
    · exact h f hf
    · exact hg
  exact unique_yields copied { l with next := l.next + 1 } hl

theorem setKnown_yields {s : Sheet} (h : s.Plain) (i : Nat) (k : Known) :
    Yields (s.setKnown i k) (s.facts.modify i fun f => { f with known := k }) := by
  unfold setKnown
  split
  · rename_i hk
    rw [← facts_set, ← hk]
    have : s.facts.set i (s.fact i) = s.facts := by
      simpa using facts_set s i id
    rw [show ({ s.fact i with known := (s.fact i).known } : Fact) = s.fact i from rfl, this]
    exact .pure h.shows
  · exact change_yields (g := fun f => { f with known := k }) h i (h.fact i)

theorem setKnown_yields_of {s : Sheet} (h : s.Plain) (i : Nat) (g : Known → Known) :
    Yields (s.setKnown i (g (s.fact i).known))
      (s.facts.modify i fun f => { f with known := g f.known }) := by
  rw [← facts_set]
  have := setKnown_yields h i (g (s.fact i).known)
  rwa [← facts_set] at this

theorem change_after_addKnown {s : Sheet} (h : s.Plain) (i : Nat) (k : Known) {g : Fact → Fact}
    (hp : ∀ f : Fact, f.Plain → (g f).Plain)
    (hg : ∀ a b : Fact, a.Like b → (g a).Like (g b)) :
    Yields (do
        let t ← s.addKnown i k
        t.change i (g (t.fact i)))
      (s.facts.modify i fun f => g { f with known := f.known.union k }) := by
  apply Yields.bind (setKnown_yields_of h i (·.union k))
  intro t ht
  apply (change_yields ht.plain i (hp _ (ht.plain.fact i))).trans
  have := ht.like.modify i hg
  rwa [List.modify_modify_eq] at this

theorem modify_noteFlags_of_known {s : Sheet} {i : Nat} (hk : (s.fact i).known.flags = true) :
    s.facts.modify i (Fact.noteFlags (s.fact i).flags) = s.facts := by
  have same : Fact.noteFlags (s.fact i).flags (s.fact i) = s.fact i := by
    simp only [Fact.noteFlags]
    rw [show ({ (s.fact i).known with flags := true } : Known) = (s.fact i).known by rw [← hk]]
  rw [← facts_set, same]
  simpa using facts_set s i id

theorem setFlags_yields {s : Sheet} (h : s.Plain) (i : Nat) (flags : Flags) :
    Yields (s.setFlags i flags) (s.facts.modify i (Fact.noteFlags flags)) := by
  unfold setFlags
  split
  · rename_i hf
    simp only [Bool.and_eq_true, beq_iff_eq] at hf
    rw [← hf.2, modify_noteFlags_of_known hf.1]
    exact .pure h.shows
  · refine (change_after_addKnown h i { flags := true } (g := fun f => { f with flags })
      (fun f hf => hf) (fun a b hab => ⟨rfl, hab.known, hab.int, hab.level⟩)).trans ?_
    apply (Likewise.refl s.facts).modify
    intro a b hab
    exact ⟨rfl, by simp [Fact.noteFlags, Known.union, hab.known], hab.int, hab.level⟩

theorem setConstantInt_yields {s : Sheet} (h : s.Plain) (i : Nat) (n : Int) :
    Yields (s.setConstantInt i n) (s.facts.modify i (Fact.noteInt n)) := by
  refine (change_after_addKnown h i { int := true, constant := true }
    (g := fun f => { f with int := n }) (fun f hf => hf)
    (fun a b hab => ⟨hab.flags, hab.known, rfl, hab.level⟩)).trans ?_
  apply (Likewise.refl s.facts).modify
  intro a b hab
  exact ⟨hab.flags, by simp [Fact.noteInt, Known.union, hab.known], rfl, hab.level⟩

theorem setConstantReal_yields {s : Sheet} (h : s.Plain) (i : Nat) {x : Number} (hx : x.Plain) :
    Yields (s.setConstantReal i x) (s.facts.modify i (Fact.noteReal x)) := by
  refine (change_after_addKnown h i { real := true, constant := true }
    (g := fun f => { f with real := x }) (fun _ _ => hx)
    (fun a b hab => ⟨hab.flags, hab.known, hab.int, rfl⟩)).trans ?_
  apply (Likewise.refl s.facts).modify
  intro a b hab
  exact ⟨hab.flags, by simp [Fact.noteReal, Known.union, hab.known], hab.int, rfl⟩

theorem mixable_of_not_finite {x : Double} (hx : x.isFinite = false) :
    mixable (.real x) = .error (if x.isNaN then .badValue else .integerRange) := by
  simp [mixable, Double.trunc?, hx]

theorem hash_set_of_error {s : Sheet} (h : s.Plain) {i : Nat} (hi : i < s.facts.length) {f : Fact} {e : Fault}
    (hmix : mixable f.real = .error e) (serial : Nat) : hash ⟨serial, s.facts.set i f⟩ = .error e := by
  have go : ∀ (facts : List Fact) (i : Nat) (y : Int), (∀ g ∈ facts, g.Plain) → i < facts.length →
      (facts.set i f).foldlM (fun x f => return mix x (← mixable f.real)) y = (.error e : Except Fault Int) := by
    intro facts
    induction facts with
    | nil => intro i y _ hi; cases hi
    | cons g facts ih =>
      intro i y hg hi
      cases i with
      | zero => simp only [List.set_cons_zero, List.foldlM_cons, hmix]; rfl
      | succ i =>
        obtain ⟨n, hn⟩ := Number.mixable_of_plain (hg g List.mem_cons_self)
        simp only [List.set_cons_succ, List.foldlM_cons, hn]
        exact ih i (mix y n) (fun k hk => hg k (List.mem_cons_of_mem g hk)) (Nat.lt_of_succ_lt_succ hi)
  exact go s.facts i _ h hi

theorem setConstantReal_of_not_finite {s : Sheet} (h : s.Plain) {i : Nat} (hi : i < s.facts.length)
    {x : Double} (hx : x.isFinite = false) {l : Ledger} (hl : l.Plain) :
    ∃ l', s.setConstantReal i (.real x) l = .error (if x.isNaN then .badValue else .integerRange) l' ∧ l'.Plain := by
  obtain ⟨t, l', hrun, hl', ht⟩ :=
    setKnown_yields_of h i (·.union { real := true, constant := true }) l hl
  have hlt : i < t.facts.length := by
    rw [ht.like.length_eq, List.length_modify]
    exact hi
  have hrun : s.addKnown i { real := true, constant := true } l = .ok t l' := hrun
  have hhash := hash_set_of_error (f := { t.fact i with real := .real x }) ht.plain hlt (mixable_of_not_finite hx) l'.next
  refine ⟨{ l' with next := l'.next + 1 }, ?_, hl'⟩
  simp only [setConstantReal, change, bind, EStateM.bind, hrun, copy, modifyGet,
    MonadStateOf.modifyGet, EStateM.modifyGet, unique, hhash]
  rfl

theorem setConstantReal_beyond {s : Sheet} (h : s.Plain) {i : Nat} (hi : s.facts.length ≤ i) (x : Number) :
    Yields (s.setConstantReal i x) s.facts := by
  have hsame (g : Fact → Fact) : s.facts.modify i g = s.facts := List.modify_eq_self hi
  refine Yields.bind (setKnown_yields_of h i (·.union { real := true, constant := true })) fun t ht => ?_
  rw [hsame] at ht
  have hlength : t.facts.length ≤ i := ht.like.length_eq ▸ hi
  have hset : t.facts.set i { t.fact i with real := x } = t.facts := List.set_eq_of_length_le hlength
  refine Yields.trans (fun l hl => ?_) ht.like
  have hcopy : Plain { serial := l.next, facts := t.facts } := ht.plain
  obtain ⟨u, l', hrun, hl', hu⟩ := unique_yields hcopy { l with next := l.next + 1 } hl
  refine ⟨u, l', ?_, hl', hu⟩
  rw [← hrun, change, hset]
  rfl

theorem forget_yields {s : Sheet} (h : s.Plain) (i : Nat) :
    Yields (s.forget i) (s.facts.modify i Fact.forget) := by
  unfold forget
  split
  · rename_i hk
    have : s.facts.modify i Fact.forget = s.facts := by
      rw [← facts_set, Fact.forget, if_pos hk]
      simpa using facts_set s i id
    rw [this]
    exact .pure h.shows
  · rename_i hk
    apply Yields.bind (setFlags_yields h i .none)
    intro t ht
    apply (setKnown_yields ht.plain i .nothing).trans
    have step := ht.like.modify i (g := fun f => { f with known := .nothing })
      (k := fun f => { f with known := .nothing })
      fun a b hab => ⟨hab.flags, rfl, hab.int, hab.level⟩
    rw [List.modify_modify_eq] at step
    refine step.trans ?_
    rw [← facts_set, ← facts_set]
    simp only [Function.comp_apply, Fact.noteFlags, Fact.forget, hk, Bool.false_eq_true, if_false]
    exact .refl _

end Sheet

end QueryMachine
