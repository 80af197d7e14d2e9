import Mathlib
import QueryMachine.Step.Seek

/-!
Ranges of an index. Along an index that is sorted by whole records, the order of the first columns against
a key never goes down, whatever the directions of the columns. So the entries below a key come first, and a
search that stops at a neighbour of the key finds where they end.
-/

namespace QueryMachine

/-- The order does not go down. -/
def Climbs (o o' : Ordering) : Prop := (o' = .lt → o = .lt) ∧ (o = .gt → o' = .gt)

namespace SearchKey

theorem compareFrom_tie (k : SearchKey) (i : Nat) (fs : List Field) (cs : List Content) :
    k.compareFrom i fs cs = (({ k with tie := .eq } : SearchKey).compareFrom i fs cs).map (·.then k.tie) := by
  induction fs generalizing i cs with
  | nil => rfl
  | cons f fs ih =>
    cases cs with
    | nil => rfl
    | cons c cs =>
      simp only [compareFrom]
      cases f.compare (k.info.collation i) c with
      | none => rfl
      | some o =>
        cases o with
        | eq => exact ih (i + 1) cs
        | lt => cases k.info.descending i <;> rfl
        | gt => cases k.info.descending i <;> rfl

theorem compare_tie (k : SearchKey) (record : Bytes) :
    k.compare record = (({ k with tie := .eq } : SearchKey).compare record).map (·.then k.tie) := by
  unfold compare
  cases Record.fields? record with
  | none => rfl
  | some fs => exact k.compareFrom_tie 0 fs k.cells

end SearchKey

/-- The comparison of fields in column `i` is a total preorder on the fields `S` and on the values `C`. -/
structure Preordered (coll : Collation) (S : Field → Prop) (C : Content → Prop)
    (cmp : Content → Content → Ordering) : Prop where
  trans : Std.TransCmp cmp
  stored : ∀ f g, S f → S g → f.compare coll (.ofValue g.value) = some (cmp (.ofValue f.value) (.ofValue g.value))
  given : ∀ f c, S f → C c → f.compare coll c = some (cmp (.ofValue f.value) c)

namespace Tree

/-- The fields in a column of the entries. -/
def Stores (t : Tree) (i : Nat) (f : Field) : Prop :=
  ∃ e ∈ t.entries, ∃ fs, Record.fields? e.record = some fs ∧ fs[i]? = some f

/-- In every column the comparison is a total preorder on the values of the index and of the key. -/
def Compares (t : Tree) (info : KeyInfo) (key : List Content) : Prop :=
  ∀ i, ∃ cmp, Preordered (info.collation i) (t.Stores i) (key[i]? = some ·) cmp

/-- The entries are records, each of them strictly before those that follow. -/
structure Sorted (t : Tree) (info : KeyInfo) : Prop where
  whole : ∀ e ∈ t.entries, (Record.fields? e.record).isSome
  before : t.entries.Pairwise fun e e' => orderOfRecord (.ofRecord info e'.record) e = some .lt

end Tree

/-- The order of the first columns of an entry against a key. -/
def Entry.orderOf (info : KeyInfo) (key : List Content) (e : Entry) : Ordering :=
  (({ cells := key, info } : SearchKey).compare e.record).getD .eq

section Monotone

variable {info : KeyInfo} {key : List Content} {t : Tree}

theorem stores_tail {i : Nat} {f : Field} {fs : List Field} (h : ∀ j g, (f :: fs)[j]? = some g → t.Stores (i + j) g) :
    ∀ j g, fs[j]? = some g → t.Stores (i + 1 + j) g := by
  intro j g hg
  rw [show i + 1 + j = i + (j + 1) by omega]
  exact h (j + 1) g hg

theorem key_tail {i : Nat} {c : Content} {cs : List Content} (h : ∀ j, (c :: cs)[j]? = key[i + j]?) :
    ∀ j, cs[j]? = key[i + 1 + j]? := by
  intro j
  rw [show i + 1 + j = i + (j + 1) by omega, ← h (j + 1)]
  rfl

theorem compareFrom_isSome (h : t.Compares info key) {i : Nat} {fs : List Field} {cs : List Content}
    (hfs : ∀ j f, fs[j]? = some f → t.Stores (i + j) f) (hcs : ∀ j, cs[j]? = key[i + j]?) :
    ∃ o, ({ cells := key, info } : SearchKey).compareFrom i fs cs = some o := by
  induction fs generalizing i cs with
  | nil => exact ⟨.eq, rfl⟩
  | cons f fs ih =>
    cases cs with
    | nil => exact ⟨.eq, rfl⟩
    | cons c cs =>
      obtain ⟨cmp, hcmp⟩ := h i
      have hc := hcmp.given f c (hfs 0 f rfl) (hcs 0).symm
      simp only [SearchKey.compareFrom, hc]
      cases cmp (.ofValue f.value) c with
      | eq => exact ih (stores_tail hfs) (key_tail hcs)
      | lt => exact ⟨_, rfl⟩
      | gt => exact ⟨_, rfl⟩

theorem Preordered.climbs {coll : Collation} {S : Field → Prop} {C : Content → Prop}
    {cmp : Content → Content → Ordering} (h : Preordered coll S C cmp) {a b : Content} (hab : cmp a b = .lt)
    (c : Content) :
    (cmp a c = .lt ∨ cmp b c = .gt) ∧ (cmp b c = .lt → cmp a c = .lt) ∧ (cmp a c = .gt → cmp b c = .gt) := by
  have := h.trans
  cases hbc : cmp b c with
  | lt => simp [Std.TransCmp.lt_trans hab hbc]
  | eq => simp [Std.TransCmp.lt_of_lt_of_eq hab hbc]
  | gt => simp

theorem compareFrom_climbs (h : t.Compares info key) {k : SearchKey} (hk : k.info = info) (htie : k.tie = .eq)
    {i : Nat} {fs fs' : List Field} {cs ds : List Content}
    (hfs : ∀ j f, fs[j]? = some f → t.Stores (i + j) f) (hfs' : ∀ j f, fs'[j]? = some f → t.Stores (i + j) f)
    (hds : ∀ (j : Nat) (d : Content), ds[j]? = some d → ∃ f : Field, fs'[j]? = some f ∧ d = .ofValue f.value)
    (hcs : ∀ j, cs[j]? = key[i + j]?) (hlt : k.compareFrom i fs ds = some .lt) {o o' : Ordering}
    (ho : ({ cells := key, info } : SearchKey).compareFrom i fs cs = some o)
    (ho' : ({ cells := key, info } : SearchKey).compareFrom i fs' cs = some o') : Climbs o o' := by
  induction fs generalizing i fs' cs ds with
  | nil =>
    have hend : some k.tie = some .lt := hlt
    simp [htie] at hend
  | cons f fs ih =>
    cases ds with
    | nil =>
      have hend : some k.tie = some .lt := hlt
      simp [htie] at hend
    | cons d ds =>
      obtain ⟨g, hhead, rfl⟩ := hds 0 d rfl
      cases fs' with
      | nil => cases hhead
      | cons g' fs' =>
        cases hhead
        cases cs with
        | nil =>
          cases ho
          cases ho'
          exact ⟨nofun, nofun⟩
        | cons c cs =>
          obtain ⟨cmp, hcmp⟩ := h i
          have hf := hfs 0 f rfl
          have hg := hfs' 0 g rfl
          have hfc := hcmp.given f c hf (hcs 0).symm
          have hgc := hcmp.given g c hg (hcs 0).symm
          simp only [SearchKey.compareFrom, hk, hcmp.stored f g hf hg] at hlt
          simp only [SearchKey.compareFrom, hfc] at ho
          simp only [SearchKey.compareFrom, hgc] at ho'
          have htrans := hcmp.trans
          cases hab : cmp (.ofValue f.value) (.ofValue g.value) with
          | eq =>
            rw [Std.TransCmp.congr_left hab] at ho
            rw [hab] at hlt
            cases hx : cmp (.ofValue g.value) c with
            | eq =>
              rw [hx] at ho ho'
              exact ih (stores_tail hfs) (stores_tail hfs') (fun j d hd => hds (j + 1) d hd) (key_tail hcs) hlt ho ho'
            | lt | gt =>
              rw [hx] at ho ho'
              cases ho.symm.trans ho'
              exact ⟨id, id⟩
          | lt =>
            have hasc : info.descending i = false := by
              cases hd : info.descending i <;> simp [hab, hd, SearchKey.direct] at hlt ⊢
            rcases (hcmp.climbs hab c).1 with hx | hx
            · rw [hx, hasc] at ho
              cases ho
              exact ⟨fun _ => rfl, nofun⟩
            · rw [hx, hasc] at ho'
              cases ho'
              exact ⟨nofun, fun _ => rfl⟩
          | gt =>
            have hdesc : info.descending i = true := by
              cases hd : info.descending i <;> simp [hab, hd, SearchKey.direct] at hlt ⊢
            have hba : cmp (.ofValue g.value) (.ofValue f.value) = .lt := by
              exact Std.OrientedCmp.lt_of_gt hab
            rcases (hcmp.climbs hba c).1 with hx | hx
            · rw [hx, hdesc] at ho'
              cases ho'
              exact ⟨nofun, fun _ => rfl⟩
            · rw [hx, hdesc] at ho
              cases ho
              exact ⟨fun _ => rfl, nofun⟩

theorem orderOf_run (hs : t.Sorted info) (h : t.Compares info key) {e : Entry} (he : e ∈ t.entries) :
    ({ cells := key, info } : SearchKey).compare e.record = some (e.orderOf info key) := by
  obtain ⟨fs, hfs⟩ := Option.isSome_iff_exists.mp (hs.whole e he)
  have hcompare : ({ cells := key, info } : SearchKey).compare e.record =
      ({ cells := key, info } : SearchKey).compareFrom 0 fs key := by
    rw [SearchKey.compare, hfs]
    rfl
  obtain ⟨o, ho⟩ : ∃ o, ({ cells := key, info } : SearchKey).compareFrom 0 fs key = some o := compareFrom_isSome h
    (fun j f hf => by rw [Nat.zero_add]; exact ⟨e, he, fs, hfs, hf⟩) fun j => by rw [Nat.zero_add]
  rw [Entry.orderOf, hcompare, ho]
  rfl

/-- The order of the first columns against a key does not go down along an index. -/
theorem orderOf_climbs (hs : t.Sorted info) (h : t.Compares info key) :
    t.entries.Pairwise fun e e' => Climbs (e.orderOf info key) (e'.orderOf info key) := by
  refine hs.before.imp_of_mem fun {e e'} he he' hlt => ?_
  obtain ⟨fs, hfs⟩ := Option.isSome_iff_exists.mp (hs.whole e he)
  obtain ⟨fs', hfs'⟩ := Option.isSome_iff_exists.mp (hs.whole e' he')
  have ho := orderOf_run hs h he
  have ho' := orderOf_run hs h he'
  rw [SearchKey.compare, hfs] at ho
  rw [SearchKey.compare, hfs'] at ho'
  rw [Tree.orderOfRecord, SearchKey.compare, hfs] at hlt
  refine compareFrom_climbs h (k := .ofRecord info e'.record) rfl rfl (i := 0)
    (fun j f hf => by rw [Nat.zero_add]; exact ⟨e, he, fs, hfs, hf⟩)
    (fun j f hf => by rw [Nat.zero_add]; exact ⟨e', he', fs', hfs', hf⟩) (fun j d hd => ?_)
    (fun j => by rw [Nat.zero_add]) hlt ho ho'
  simp only [SearchKey.ofRecord, hfs', Option.getD_some, List.getElem?_map, Option.map_eq_some_iff] at hd
  obtain ⟨f, hf, rfl⟩ := hd
  rw [List.getElem?_take] at hf
  split at hf
  · exact ⟨f, hf, rfl⟩
  · cases hf

end Monotone

section Prefixes

variable {α : Type} {l : List α} {p q : α → Bool}

/-- A property that holds of the first items holds of as many as it holds of at all. -/
theorem sat_iff_lt_countP (h : l.Pairwise fun x y => p y = true → p x = true) {i : Nat} {x : α}
    (hx : l[i]? = some x) : p x = true ↔ i < l.countP p := by
  induction l generalizing i with
  | nil => simp at hx
  | cons a l ih =>
    obtain ⟨ha, hl⟩ := List.pairwise_cons.mp h
    by_cases hpa : p a = true
    · rw [List.countP_cons_of_pos hpa]
      cases i with
      | zero => simpa [← (by simpa using hx : a = x)] using hpa
      | succ i => rw [ih hl (by simpa using hx)]; omega
    · have hnone : ∀ y ∈ l, ¬ p y = true := fun y hy hpy => hpa (ha y hy hpy)
      rw [List.countP_cons_of_neg hpa, List.countP_eq_zero.mpr hnone]
      cases i with
      | zero => simpa [← (by simpa using hx : a = x)] using hpa
      | succ i => simpa using hnone x (List.mem_of_getElem? (by simpa using hx))

theorem filter_eq_takeWhile (h : l.Pairwise fun x y => p y = true → p x = true) : l.filter p = l.takeWhile p := by
  induction l with
  | nil => rfl
  | cons a l ih =>
    obtain ⟨ha, hl⟩ := List.pairwise_cons.mp h
    by_cases hpa : p a = true
    · rw [List.filter_cons_of_pos hpa, List.takeWhile_cons_of_pos hpa, ih hl]
    · rw [List.filter_cons_of_neg hpa, List.takeWhile_cons_of_neg hpa]
      exact List.filter_eq_nil_iff.mpr fun y hy hpy => hpa (ha y hy hpy)

theorem filter_not_eq_drop (h : l.Pairwise fun x y => p y = true → p x = true) :
    l.filter (fun x => !p x) = l.drop (l.countP p) := by
  induction l with
  | nil => rfl
  | cons a l ih =>
    obtain ⟨ha, hl⟩ := List.pairwise_cons.mp h
    by_cases hpa : p a = true
    · rw [List.filter_cons_of_neg (by simpa using hpa), List.countP_cons_of_pos hpa, List.drop_succ_cons, ih hl]
    · have hnone : ∀ y ∈ l, ¬ p y = true := fun y hy hpy => hpa (ha y hy hpy)
      rw [List.countP_cons_of_neg hpa, List.countP_eq_zero.mpr hnone, List.drop_zero]
      exact List.filter_eq_self.mpr (List.forall_mem_cons.mpr ⟨by simpa using hpa, fun y hy => by simpa using hnone y hy⟩)

/-- What lies between two bounds: the items behind the first bound, as long as they are before the second. -/
theorem filter_between (hp : l.Pairwise fun x y => p y = true → p x = true)
    (hq : l.Pairwise fun x y => q y = true → q x = true) :
    l.filter (fun x => !p x && q x) = (l.drop (l.countP p)).takeWhile q := by
  rw [← filter_not_eq_drop hp, ← filter_eq_takeWhile (hq.sublist List.filter_sublist), List.filter_filter]
  exact List.filter_congr fun x _ => Bool.and_comm _ _

end Prefixes

section Searches

variable {info : KeyInfo} {key : List Content} {t : Tree} {b : Bound}

/-- A search stops at a neighbour of what it looks for, and says on which side. -/
def Tree.Neighbours (t : Tree) (order : Entry → Option Ordering) : Prop :=
  match t.search order false with
  | .empty => t.entries = []
  | .stopped j o =>
    ∃ e, t.entries[j]? = some e ∧ order e = some o ∧
      (o = .lt → ∀ e', t.entries[j + 1]? = some e' → order e' ≠ some .lt) ∧
      (o = .gt → ∀ k e', j = k + 1 → t.entries[k]? = some e' → order e' ≠ some .gt)
  | .damaged _ => False

/-- How many entries a search passes over: those that are on the wrong side of the key. -/
def Tree.passed (t : Tree) (b : Bound) (info : KeyInfo) (key : List Content) : Nat :=
  t.entries.countP fun e => b.misses (e.orderOf info key)

theorem misses_tie (hb : b.isUpward = true) (o : Ordering) : b.misses (o.then b.tie) = b.misses o := by
  revert hb
  cases b <;> cases o <;> decide

theorem misses_then_tie_iff (hb : b.isUpward = true) (o : Ordering) :
    (b.misses (o.then b.tie) = true ↔ o.then b.tie = .lt) ∧ (b.misses (o.then b.tie) = false ↔ o.then b.tie = .gt) := by
  revert hb
  cases b <;> cases o <;> decide

theorem misses_of_climbs (hb : b.isUpward = true) {o o' : Ordering} (h : Climbs o o') (ho' : b.misses o' = true) :
    b.misses o = true := by
  cases b with
  | ge =>
    simp only [Bound.misses, beq_iff_eq] at ho' ⊢
    exact h.1 ho'
  | gt =>
    simp only [Bound.misses, bne_iff_ne] at ho' ⊢
    exact mt h.2 ho'
  | lt | le => cases hb

theorem pairwise_misses (hs : t.Sorted info) (h : t.Compares info key) (hb : b.isUpward = true) :
    t.entries.Pairwise fun e e' =>
      b.misses (e'.orderOf info key) = true → b.misses (e.orderOf info key) = true :=
  (orderOf_climbs hs h).imp fun hc => misses_of_climbs hb hc

theorem orderOfRecord_run (hs : t.Sorted info) (h : t.Compares info key) {e : Entry} (he : e ∈ t.entries)
    (tie : Ordering) :
    Tree.orderOfRecord { cells := key, info, tie } e = some ((e.orderOf info key).then tie) := by
  rw [Tree.orderOfRecord, SearchKey.compare_tie, orderOf_run hs h he]
  rfl

/-- Where a search for the first entry at or behind a key stops, and where it has to go from there. -/
theorem passed_of_neighbours (hs : t.Sorted info) (h : t.Compares info key) (hb : b.isUpward = true) {j : Nat}
    {o : Ordering} (hn : t.Neighbours (Tree.orderOfRecord { cells := key, info, tie := b.tie }))
    (hj : t.search (Tree.orderOfRecord { cells := key, info, tie := b.tie }) false = .stopped j o) :
    j < t.entries.length ∧ t.passed b info key = if b.misses o then j + 1 else j := by
  rw [Tree.Neighbours, hj] at hn
  obtain ⟨e, he, ho, hnext, hprevious⟩ := hn
  have hpairs := pairwise_misses hs h hb
  have hlt : j < t.entries.length := (List.getElem?_eq_some_iff.mp he).1
  have horder {k : Nat} {e' : Entry} (he' : t.entries[k]? = some e') :=
    orderOfRecord_run hs h (List.mem_of_getElem? he') b.tie
  have hsat {k : Nat} {e' : Entry} (he' : t.entries[k]? = some e') :=
    sat_iff_lt_countP hpairs he'
  have hoe : o = (e.orderOf info key).then b.tie := by
    have := ho.symm.trans (horder he)
    injection this
  have hmiss : b.misses o = b.misses (e.orderOf info key) := by rw [hoe, misses_tie hb]
  refine ⟨hlt, ?_⟩
  have hcount : t.passed b info key ≤ t.entries.length := List.countP_le_length
  cases hm : b.misses o with
  | true =>
    have hin : j < t.passed b info key := (hsat he).mp (hmiss ▸ hm)
    rw [if_pos rfl]
    by_contra hne
    have hlen : j + 1 < t.entries.length := by omega
    obtain ⟨e', he'⟩ : ∃ e', t.entries[j + 1]? = some e' := ⟨_, List.getElem?_eq_getElem hlen⟩
    have holt : o = .lt := by rw [hoe]; exact (misses_then_tie_iff hb _).1.mp (hoe ▸ hm)
    have hnot := hnext holt e' he'
    rw [horder he', ne_eq, Option.some.injEq, ← (misses_then_tie_iff hb _).1, misses_tie hb, hsat he'] at hnot
    have hge : ¬ j + 1 < t.passed b info key := hnot
    omega
  | false =>
    have hout : ¬ j < t.passed b info key := mt (hsat he).mpr (by rw [← hmiss, hm]; simp)
    rw [if_neg (by simp)]
    by_contra hne
    obtain ⟨k, rfl⟩ : ∃ k, j = k + 1 := ⟨j - 1, by omega⟩
    obtain ⟨e', he'⟩ : ∃ e', t.entries[k]? = some e' := ⟨_, List.getElem?_eq_getElem (by omega)⟩
    have hogt : o = .gt := by rw [hoe]; exact (misses_then_tie_iff hb _).2.mp (hoe ▸ hm)
    have hnot := hprevious hogt k e' rfl he'
    rw [horder he', ne_eq, Option.some.injEq, ← (misses_then_tie_iff hb _).2, misses_tie hb] at hnot
    have hlow : k < t.passed b info key := (hsat he').mp (by simpa using hnot)
    omega

end Searches

end QueryMachine
