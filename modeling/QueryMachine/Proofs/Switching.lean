import Mathlib
import QueryMachine.Opcode.Status

/-!
Changes of a status. A status that is frozen, or under which knowledge about registers is used, is locked, and no
change lifts the lock; of the changes only the one that makes all families direct gets past it. Families that have
to agree agree after every history.
-/

namespace QueryMachine

theorem Family.partner_partner (f : Family) : f.partner.partner = f := by
  cases f <;> rfl

namespace Status

inductive Change
  | set (name : String) (value : Bool)
  | disable (spec : String)
  | freeze
  deriving Repr, DecidableEq, Inhabited

/-- The status after a change, and what the change is refused for. -/
def Change.apply (s : Status) : Change → Status × Option Lock
  | set name value =>
    match s.set name value with
    | .ok t => (t, none)
    | .error lock => (s, some lock)
  | disable spec => s.disable spec
  | freeze => (s.freeze, none)

/-- The status after some changes; one that is refused is followed by the next one all the same. -/
def applyAll (cs : List Change) (s : Status) : Status := cs.foldl (fun s c => (c.apply s).1) s

variable {s t : Status} {lock : Lock}

/-! What a change can do. -/

theorem disableNames_of_lock (h : s.lock? = some lock) (names : List String) :
    s.disableNames names = (s, if ∃ name ∈ names, name ≠ "" then some lock else none) := by
  induction names with
  | nil => simp [disableNames]
  | cons name rest ih =>
    by_cases hname : name = ""
    · subst hname
      simp [disableNames, ih]
    · simp [disableNames, set, h, hname]

theorem disable_of_lock (h : s.lock? = some lock) {spec : String} (hspec : spec ≠ "all") :
    s.disable spec = (s, if ∃ name ∈ spec.splitOn ":", name ≠ "" then some lock else none) := by
  rw [disable, if_neg hspec, disableNames_of_lock h]

theorem set_of_lock (h : s.lock? = some lock) (name : String) (value : Bool) : s.set name value = .error lock := by
  rw [set, h]

/-- What holds of a status, and of every status in which single families were assigned, all families made direct or
which was frozen, holds along every history. -/
theorem applyAll_induction {P : Status → Prop} (h : P s) (hassign : ∀ t f value, P t → P (t.assign f value))
    (hall : ∀ t, P t → P t.disableAll) (hfreeze : ∀ t, P t → P t.freeze) (cs : List Change) : P (applyAll cs s) := by
  -- A name that stands for no family is accepted and changes nothing.
  have hset {t u : Status} {name : String} {value : Bool} (ht : P t) (hu : t.set name value = .ok u) : P u := by
    rw [set] at hu
    split at hu
    · cases hu
    · cases hu
      cases Family.ofName? name with
      | none => exact ht
      | some f => exact hassign t f value ht
  have hnames (names : List String) : ∀ t, P t → P (t.disableNames names).1 := by
    induction names with
    | nil => exact fun t ht => ht
    | cons name rest ih =>
      intro t ht
      rw [disableNames]
      split
      · exact ih t ht
      · split
        · rename_i u hu
          exact ih u (hset ht hu)
        · exact ht
  have hone (t : Status) (c : Change) (ht : P t) : P (c.apply t).1 := by
    cases c with
    | set name value =>
      rw [Change.apply]
      split
      · rename_i u hu
        exact hset ht hu
      · exact ht
    | disable spec =>
      rw [Change.apply, disable]
      split
      · exact hall t ht
      · exact hnames _ t ht
    | freeze => exact hfreeze t ht
  induction cs generalizing s with
  | nil => exact h
  | cons c cs ih => exact ih (hone s c h)

/-! Locks. -/

/-- A status under which knowledge is used, or that is frozen. -/
def Locked (s : Status) : Prop := s.useFlagCache = true ∨ s.frozen = true

theorem Locked.lock? (h : s.Locked) : s.lock? = some (if s.frozen then .frozen else .flagCache) := by
  unfold Status.lock?
  split_ifs with hf hc
  · rfl
  · rfl
  · exact absurd h (not_or.mpr ⟨hc, hf⟩)

theorem Locked.applyAll (h : s.Locked) (cs : List Change) : (applyAll cs s).Locked :=
  applyAll_induction h (fun _ _ _ h => h) (fun _ h => h) (fun _ _ => .inr rfl) cs

theorem locked_of_freeze {cs : List Change} (h : .freeze ∈ cs) (s : Status) : (applyAll cs s).Locked := by
  obtain ⟨before, later, rfl⟩ := List.append_of_mem h
  rw [Status.applyAll, List.foldl_append, List.foldl_cons]
  exact Locked.applyAll (.inr rfl) later

theorem Locked.apply (h : s.Locked) (c : Change) :
    (c.apply s).1.tracked = if c = .disable "all" then fun _ => false else s.tracked := by
  cases c with
  | set name value => simp [Change.apply, set_of_lock h.lock?]
  | disable spec =>
    by_cases hspec : spec = "all"
    · simp [Change.apply, disable, disableAll, hspec]
    · simp [Change.apply, disable_of_lock h.lock? hspec, hspec]
  | freeze => rfl

theorem Locked.tracked_applyAll (h : s.Locked) (cs : List Change) :
    (Status.applyAll cs s).tracked = if .disable "all" ∈ cs then fun _ => false else s.tracked := by
  induction cs generalizing s with
  | nil => simp [Status.applyAll]
  | cons c cs ih =>
    have hone := h.apply c
    have hrest := ih (s := (c.apply s).1) (Locked.applyAll h [c])
    rw [Status.applyAll, List.foldl_cons]
    rw [Status.applyAll] at hrest
    rw [hrest, hone]
    by_cases hc : c = .disable "all" <;> by_cases hcs : Change.disable "all" ∈ cs <;>
      simp [hc, hcs, eq_comm (a := Change.disable "all")]

/-- Once a status is frozen, or knowledge is used from the start, nothing but the word `all` changes what is tracked.
A single change, and a list with at least one name in it, are refused and change nothing; a list without a name is
obeyed and changes nothing; the word `all` is obeyed and makes every family direct. -/
theorem changed_by_all_only (s : Status) (before later : List Change)
    (h : s.useFlagCache = true ∨ .freeze ∈ before) :
    ∃ t lock, t = applyAll later (applyAll before s) ∧ t.lock? = some lock ∧
      t.tracked = (if .disable "all" ∈ later then fun _ => false else (applyAll before s).tracked) ∧
      (∀ name value, t.set name value = .error lock) ∧
      (∀ spec, spec ≠ "all" →
        t.disable spec = (t, if ∃ name ∈ spec.splitOn ":", name ≠ "" then some lock else none)) ∧
      t.disable "all" = (t.disableAll, none) := by
  have hbefore : (applyAll before s).Locked := by
    rcases h with h | h
    · exact Locked.applyAll (.inl h) before
    · exact locked_of_freeze h s
  have hlock := (hbefore.applyAll later).lock?
  exact ⟨_, _, rfl, hlock, hbefore.tracked_applyAll later, set_of_lock hlock, fun spec => disable_of_lock hlock,
    by rw [disable, if_pos rfl]⟩

theorem changed_by_all_only_frozen :
    ∃ t : Status, t = applyAll [.set "Goto" true, .disable ":Jump"]
        (applyAll [.set "Goto" false, .freeze] { useFlagCache := false }) ∧
      t.tracked .goto = false ∧ t.tracked .jump = true ∧ ∃ lock, t.set "Goto" true = .error lock := by
  obtain ⟨t, lock, ht, -, htracked, hset, -⟩ := changed_by_all_only { useFlagCache := false }
    [.set "Goto" false, .freeze] [.set "Goto" true, .disable ":Jump"] (.inr (by decide))
  rw [if_neg (by decide)] at htracked
  exact ⟨t, ht, by rw [htracked]; rfl, by rw [htracked]; rfl, lock, hset _ _⟩

/-- The word `all` makes a family direct under a status with which knowledge is used, and under one that is frozen, and
is not refused. -/
theorem all_is_obeyed_under_lock :
    (tracked { useFlagCache := true } .goto = true ∧ (disable { useFlagCache := true } "all").2 = none ∧
      (disable { useFlagCache := true } "all").1.tracked .goto = false) ∧
    (tracked { useFlagCache := false, frozen := true } .goto = true ∧
      (disable { useFlagCache := false, frozen := true } "all").2 = none ∧
      (disable { useFlagCache := false, frozen := true } "all").1.tracked .goto = false) := by
  decide

/-! Families that have to agree. -/

/-- Families that have to agree do so. -/
def Coupled (s : Status) : Prop := ∀ f : Family, s.tracked f.partner = s.tracked f

theorem Coupled.of_tracked (h : s.Coupled) (ht : t.tracked = s.tracked) : t.Coupled := by
  intro f
  rw [ht]
  exact h f

theorem Coupled.assign (h : s.Coupled) (f : Family) (value : Bool) : (s.assign f value).Coupled := by
  intro g
  have hboth : (g.partner = f ∨ g.partner = f.partner) ↔ (g = f ∨ g = f.partner) := by
    constructor
    · rintro (hg | hg)
      · exact .inr (by rw [← hg, Family.partner_partner])
      · exact .inl (by rw [← Family.partner_partner g, hg, Family.partner_partner])
    · rintro (rfl | rfl)
      · exact .inr rfl
      · exact .inl (Family.partner_partner f)
  simp only [Status.assign, hboth, h g]

theorem coupled_applyAll (cached : Bool) (cs : List Change) : (applyAll cs { useFlagCache := cached }).Coupled :=
  applyAll_induction (fun f => by cases f <;> rfl) (fun _ f value h => h.assign f value) (fun _ _ _ => rfl)
    (fun _ h => h) cs

end Status

end QueryMachine
