import Mathlib
import QueryMachine.Proofs.Knowing
import QueryMachine.Proofs.Words

/-!
Histories of accesses to the cells of a bank. Whatever the history, the cells change as plain memory
does; the marks are always seen as they are, and the payload is if it is read as it was written.
-/

namespace QueryMachine

/-- What the payload of a cell can be taken for. -/
inductive Part
  | int
  | real
  deriving Repr, DecidableEq, Inhabited

/-- Equal numbers, or the same NaN. -/
def Number.Same (x y : Number) : Prop := x = y ∨ x.eq y = true

namespace Fact

/-- A fact is true of a cell, except for the part that the last write did not mean. -/
structure Holds (f : Fact) (c : Cell) (last : Option Part) : Prop where
  flags : ∀ g, f.flags? = some g → g = c.flags
  int : last ≠ some .real → ∀ n, f.int? = some n → n = c.int
  real : last ≠ some .int → ∀ x, f.real? = some x → (Number.real c.real).eq x = true

variable {f g : Fact} {c : Cell} {last : Option Part}

theorem holds_of_nothing (h : f.known = .nothing) : f.Holds c last := by
  constructor <;> simp [flags?, int?, real?, isConstantInt, isConstantReal, h, Known.nothing]

theorem Holds.of_like (h : g.Holds c last) (hl : f.Like g) (hf : f.Plain) (hg : g.Plain) :
    f.Holds c last where
  flags a ha := h.flags a (by rw [← hl.flags?_eq, ha])
  int hp n hn := h.int hp n (by rw [← hl.int?_eq, hn])
  real hp x hx := by
    have hlevel := hl.real?_level
    rw [hx] at hlevel
    obtain ⟨y, hy, hyx⟩ := Option.map_eq_some_iff.mp hlevel.symm
    have heq := (Number.real_eq_iff (hg.real? hy) c.real).mp (h.real hp y hy)
    rw [Number.real_eq_iff (hf.real? hx)]
    exact ⟨heq.1, heq.2.trans hyx⟩

end Fact

inductive Access
  | getFlags
  | setFlags (flags : Flags)
  | getInt
  | setInt (n : Int) (constant : Bool)
  | getReal
  | setReal (x : Double) (constant : Bool)
  | forget
  /-- The cell is written behind the sheet, and what is known about it is forgotten before that or
  after it. -/
  | foreign (c : Cell) (early : Bool)
  deriving Repr, DecidableEq, Inhabited

namespace Access

def perform (i : Nat) : Access → BankM Unit
  | getFlags => discard (Bank.flags i)
  | setFlags flags => Bank.setFlags i flags
  | getInt => discard (Bank.int i)
  | setInt n constant => Bank.setInt i n constant
  | getReal => discard (Bank.real i)
  | setReal x constant => Bank.setReal i (.real x) constant
  | forget => Bank.forgetFact i
  | foreign c true => do Bank.forgetFact i; Bank.setCell i c
  | foreign c false => do Bank.setCell i c; Bank.forgetFact i

def Valid : Access → Prop
  | setInt n _ => fitsWord n = true
  | setReal x _ => x.isFinite = true
  | _ => True

instance : (a : Access) → Decidable a.Valid
  | setInt n _ => inferInstanceAs (Decidable (fitsWord n = true))
  | setReal x _ => inferInstanceAs (Decidable (x.isFinite = true))
  | getFlags | setFlags _ | getInt | getReal | forget | foreign _ _ =>
    inferInstanceAs (Decidable True)

/-- What the access does to the cell. -/
def write : Access → Cell → Cell
  | setFlags flags, c => c.withFlags flags
  | setInt n _, c => c.withPayload (intToWord n)
  | setReal x _, c => c.withPayload x.bits
  | foreign c _, _ => c
  | getFlags, c | getInt, c | getReal, c | forget, c => c

/-- What the access does to the fact about the cell. -/
def note (c : Cell) : Access → Fact → Fact
  | getFlags => Fact.noteFlags c.flags
  | setFlags flags => Fact.noteFlags flags
  | setInt n constant => if constant then Fact.noteInt n else Fact.dropInt
  | setReal x constant => if constant then Fact.noteReal (.real x) else Fact.dropReal
  | getInt | getReal => id
  | forget | foreign _ _ => Fact.forget

/-- What the payload was last written as since everything about the cell was forgotten. -/
def lastPart : Access → Option Part → Option Part
  | setInt _ _, _ => some .int
  | setReal _ _, _ => some .real
  | forget, _ | foreign _ _, _ => none
  | getFlags, p | setFlags _, p | getInt, p | getReal, p => p

theorem holds {a : Access} (ha : a.Valid) {f : Fact} {c : Cell} {last : Option Part}
    (h : f.Holds c last) : (a.note c f).Holds (a.write c) (a.lastPart last) := by
  cases a with
  | getFlags =>
    refine ⟨fun g hg => ?_, h.int, h.real⟩
    simpa [note, Fact.noteFlags, Fact.flags?, write, eq_comm] using hg
  | setFlags flags =>
    refine ⟨fun g hg => ?_, h.int, h.real⟩
    simpa [note, Fact.noteFlags, Fact.flags?, write, Cell.withFlags, eq_comm] using hg
  | getInt => exact h
  | getReal => exact h
  | setInt n constant =>
    refine ⟨?_, fun _ m hm => ?_, fun hp => absurd rfl hp⟩
    · cases constant <;> exact h.flags
    · cases constant with
      | true =>
        have hmn : n = m := by
          simpa [note, Fact.noteInt, Fact.int?, Fact.isConstantInt] using hm
        exact hmn ▸ (wordToInt_intToWord_of_fits ha).symm
      | false => simp [note, Fact.dropInt, Fact.int?, Fact.isConstantInt] at hm
  | setReal x constant =>
    refine ⟨?_, fun hp => absurd rfl hp, fun _ y hy => ?_⟩
    · cases constant <;> exact h.flags
    · cases constant with
      | true =>
        have hxy : Number.real x = y := by
          simpa [note, Fact.noteReal, Fact.real?, Fact.isConstantReal] using hy
        subst hxy
        exact (Number.real_eq_iff (a := .real x) ha x).mpr ⟨Double.isNaN_of_isFinite ha, rfl⟩
      | false => simp [note, Fact.dropReal, Fact.real?, Fact.isConstantReal] at hy
  | forget => exact Fact.holds_of_nothing (Fact.forget_known f)
  | foreign c' early => exact Fact.holds_of_nothing (Fact.forget_known f)

theorem note_plain {a : Access} (ha : a.Valid) (c : Cell) {f : Fact} (h : f.Plain) :
    (a.note c f).Plain := by
  cases a with
  | setInt n constant => cases constant <;> exact h
  | setReal x constant =>
    cases constant with
    | true => exact ha
    | false => exact h
  | forget =>
    simp only [note, Fact.forget]
    split <;> exact h
  | foreign c' early =>
    simp only [note, Fact.forget]
    split <;> exact h
  | _ => exact h

variable {b b' : Bank} {s : Sheet} {i : Nat}

theorem run {a : Access} (ha : a.Valid) (h : b.Keeps s) (hi : i < b.cells.size)
    (ht : ∀ g, (s.fact i).flags? = some g → g = (b.cellAt i).flags) :
    ∃ b', a.perform i b = .ok () b' ∧
      (b.withCell i (a.write (b.cellAt i))).Notes
        (s.facts.modify i (a.note (b.cellAt i))) b' := by
  cases a with
  | getFlags =>
    obtain ⟨b', hrun, hn⟩ := h.flags_run ht
    refine ⟨b', discard_of_ok hrun, ?_⟩
    rwa [write, Bank.withCell_cellAt]
  | setFlags flags => exact h.noteFlags_run hi ht (by simp)
  | getInt =>
    refine ⟨b, discard_of_ok (h.int_run i), ?_⟩
    rw [write, Bank.withCell_cellAt, note, List.modify_id]
    exact h.notes_self
  | setInt n constant => exact h.setInt_run i ha constant
  | getReal =>
    refine ⟨b, discard_of_ok (h.real_run i), ?_⟩
    rw [write, Bank.withCell_cellAt, note, List.modify_id]
    exact h.notes_self
  | setReal x constant => exact h.setReal_run i fun _ => ha
  | forget =>
    rw [write, Bank.withCell_cellAt]
    exact h.forgetFact_run i
  | foreign c early =>
    cases early with
    | true =>
      obtain ⟨b', hrun, hn⟩ := h.forgetFact_run i
      exact ⟨b'.withCell i c, bind_of_ok hrun, hn.withCell i c⟩
    | false => exact (h.withCell i c).forgetFact_run i

end Access

/-- What happens to a bank while a program runs. -/
inductive Action
  | on (i : Nat) (a : Access)
  | forgetAll
  /-- The run ends and goes on. -/
  | resume
  /-- The current sheet is put away and comes back. -/
  | uncover
  deriving Repr, DecidableEq, Inhabited

namespace Action

def perform : Action → BankM Unit
  | on i a => a.perform i
  | forgetAll => Bank.forgetAll
  | resume => do Bank.prepareReturn; Bank.reenter
  | uncover => do
    let s ← Bank.current?
    Bank.hide
    Bank.reveal s

def Valid (n : Nat) : Action → Prop
  | on i a => i < n ∧ a.Valid
  | _ => True

instance (n : Nat) : (a : Action) → Decidable (a.Valid n)
  | on i a => inferInstanceAs (Decidable (i < n ∧ a.Valid))
  | forgetAll | resume | uncover => inferInstanceAs (Decidable True)

def write : Action → Array Cell → Array Cell
  | on i a, cells => cells.setIfInBounds i (a.write (cells.getD i {}))
  | _, cells => cells

@[simp] theorem size_write (a : Action) (cells : Array Cell) :
    (a.write cells).size = cells.size := by
  cases a <;> simp [write]

theorem size_history (as : List Action) (cells : Array Cell) :
    (as.foldl (fun cells a => a.write cells) cells).size = cells.size := by
  induction as generalizing cells with
  | nil => rfl
  | cons a as ih => rw [List.foldl_cons, ih, size_write]

/-- What every payload was last written as since everything about its cell was forgotten. -/
def lastPart : Action → (Nat → Option Part) → Nat → Option Part
  | on i a, w => Function.update w i (a.lastPart (w i))
  | forgetAll, _ => fun _ => none
  | resume, w | uncover, w => w

end Action

namespace Bank

/-- A run goes on in which every fact is true of its cell. -/
structure Faithful (b : Bank) (s : Sheet) (w : Nat → Option Part) : Prop where
  keeps : b.Keeps s
  outside : b.holder.outside = none
  inside : b.holder.inside = some (some s)
  holds : ∀ i, (s.fact i).Holds (b.cellAt i) (w i)

variable {b b' : Bank} {s : Sheet} {w : Nat → Option Part} {i : Nat}

theorem Faithful.access (h : b.Faithful s w) (hi : i < b.cells.size) {a : Access} (ha : a.Valid) :
    ∃ b' t, a.perform i b = .ok () b' ∧ b'.cells = (Action.on i a).write b.cells ∧
      b'.Faithful t ((Action.on i a).lastPart w) ∧
      ∀ j, j ≠ i → b'.cellAt j = b.cellAt j ∧ (t.fact j).Like (s.fact j) := by
  obtain ⟨b', hrun, t, l, rfl, hk, hs⟩ := Access.run ha h.keeps hi (h.holds i).flags
  have hfact := (h.keeps.withCell i _).fact_noted (by simpa using hi) hs
  have elsewhere (j : Nat) (hj : j ≠ i) : (t.fact j).Like (s.fact j) := by
    have := hfact j
    rwa [if_neg (fun hij => hj hij.1.symm)] at this
  have hcell (j : Nat) : ((b.withCell i (a.write (b.cellAt i))).knowing t l).cellAt j =
      if i = j then a.write (b.cellAt i) else b.cellAt j := cellAt_withCell hi j _
  refine ⟨_, t, hrun, rfl, ⟨hk, ?_, ?_, fun j => ?_⟩, fun j hj => ⟨?_, elsewhere j hj⟩⟩
  · simp [Bank.knowing, Holder.holding, h.inside, h.outside]
  · simp [Bank.knowing, Holder.holding, h.inside]
  · rw [hcell, Action.lastPart]
    by_cases hij : i = j
    · subst hij
      rw [if_pos rfl, Function.update_self]
      have hlike := hfact i
      simp only [true_and, holder_withCell] at hlike
      split at hlike
      · exact (Access.holds ha (h.holds i)).of_like hlike (hk.plain.fact i)
          (Access.note_plain ha _ (h.keeps.plain.fact i))
      · rename_i hc
        apply Fact.holds_of_nothing
        rw [hlike.known, h.keeps.fact_unused (by simpa using hc)]
    · rw [if_neg hij, Function.update_of_ne (Ne.symm hij)]
      exact (h.holds j).of_like (elsewhere j (Ne.symm hij)) (hk.plain.fact j) (h.keeps.plain.fact j)
  · rw [hcell, if_neg (Ne.symm hj)]

theorem Faithful.forgetAll (h : b.Faithful s w) :
    ∃ b' t, Bank.forgetAll b = .ok () b' ∧ b'.cells = b.cells ∧ b'.Faithful t fun _ => none := by
  obtain ⟨b', hrun, t, l, rfl, hk, hs⟩ := h.keeps.forgetAll_run
  refine ⟨_, t, hrun, rfl, hk, ?_, ?_, fun j => ?_⟩
  · simp [Bank.knowing, Holder.holding, h.inside, h.outside]
  · simp [Bank.knowing, Holder.holding, h.inside]
  · apply Fact.holds_of_nothing
    have hlike := hs.fact j
    rw [noted, ite_self, Sheet.getD_blank] at hlike
    exact hlike.known

theorem Faithful.resume (h : b.Faithful s w) : Action.resume.perform b = .ok () b := by
  obtain ⟨cells, ⟨blank, outside, inside, useCache⟩, ledger, reach, indexed, fresh⟩ := b
  obtain rfl := h.outside
  obtain rfl := h.inside
  rfl

theorem Faithful.uncover (h : b.Faithful s w) : Action.uncover.perform b = .ok () b := by
  obtain ⟨cells, ⟨blank, outside, inside, useCache⟩, ledger, reach, indexed, fresh⟩ := b
  obtain rfl := h.inside
  rfl

theorem Faithful.step (h : b.Faithful s w) {a : Action} (ha : a.Valid b.cells.size) :
    ∃ b' t, a.perform b = .ok () b' ∧ b'.cells = a.write b.cells ∧ b'.Faithful t (a.lastPart w) := by
  cases a with
  | on i a =>
    obtain ⟨b', t, hrun, hcells, hf, _⟩ := h.access ha.1 ha.2
    exact ⟨b', t, hrun, hcells, hf⟩
  | forgetAll => exact h.forgetAll
  | resume => exact ⟨b, s, h.resume, rfl, h⟩
  | uncover => exact ⟨b, s, h.uncover, rfl, h⟩

theorem Faithful.run (h : b.Faithful s w) {as : List Action}
    (ha : ∀ a ∈ as, a.Valid b.cells.size) :
    ∃ b' t, as.forM Action.perform b = .ok () b' ∧
      b'.cells = as.foldl (fun cells a => a.write cells) b.cells ∧
      b'.Faithful t (as.foldl (fun w a => a.lastPart w) w) := by
  induction as generalizing b s w with
  | nil => exact ⟨b, s, rfl, rfl, h⟩
  | cons a as ih =>
    obtain ⟨c, t, hrun, hcells, hf⟩ := h.step (ha a List.mem_cons_self)
    have hsize : c.cells.size = b.cells.size := by rw [hcells, Action.size_write]
    obtain ⟨b', t', hrun', hcells', hf'⟩ :=
      ih hf fun a' h' => hsize ▸ ha a' (List.mem_cons_of_mem a h')
    refine ⟨b', t', (bind_of_ok hrun).trans hrun', ?_, hf'⟩
    rw [hcells', hcells, List.foldl_cons]

theorem reenter_faithful (cells : Array Cell) (useCache : Bool) (fresh : Nat) :
    ∃ b s, reenter (ofCells cells useCache true fresh) = .ok () b ∧ b.cells = cells ∧
      b.Faithful s fun _ => none := by
  refine ⟨_, ⟨0, List.replicate cells.size {}⟩, rfl, rfl, ⟨?_, rfl, rfl, fun i => ?_⟩⟩
  · exact ⟨rfl, rfl, replicate_plain _, by simp [ofCells], fun t ht => by simp [ofCells] at ht, rfl,
      fun _ => rfl⟩
  · exact Fact.holds_of_nothing (by rw [Sheet.fact, Sheet.getD_blank])

/-! What is seen. -/

theorem Faithful.flags_seen (h : b.Faithful s w) (i : Nat) :
    (flags i).run' b = some (b.cellAt i).flags := by
  obtain ⟨b', hrun, _⟩ := h.keeps.flags_run (h.holds i).flags
  exact answer_of_ok hrun

theorem Keeps.int_seen (h : b.Keeps s) (i : Nat) :
    (int i).run' b = some ((s.fact i).int?.getD (b.cellAt i).int) :=
  answer_of_ok (h.int_run i)

theorem Keeps.real_seen (h : b.Keeps s) (i : Nat) :
    (real i).run' b = some ((s.fact i).real?.getD (.real (b.cellAt i).real)) :=
  answer_of_ok (h.real_run i)

theorem Faithful.int_seen (h : b.Faithful s w) (hw : w i ≠ some .real) :
    (int i).run' b = some (b.cellAt i).int := by
  rw [h.keeps.int_seen]
  cases hf : (s.fact i).int? with
  | none => rfl
  | some n => rw [Option.getD_some, (h.holds i).int hw n hf]

theorem Faithful.real_seen (h : b.Faithful s w) (hw : w i ≠ some .int) :
    ∃ x, (real i).run' b = some x ∧ (Number.real (b.cellAt i).real).Same x := by
  rw [h.keeps.real_seen]
  cases hf : (s.fact i).real? with
  | none => exact ⟨_, rfl, .inl rfl⟩
  | some x => exact ⟨x, rfl, .inr ((h.holds i).real hw x hf)⟩

theorem real_seen_same {t : Sheet} (hb : b.Keeps s) (hb' : b'.Keeps t)
    (hlike : (t.fact i).Like (s.fact i)) (hcell : b'.cellAt i = b.cellAt i) :
    ∃ x y, (real i).run' b = some x ∧ (real i).run' b' = some y ∧ x.Same y := by
  rw [hb.real_seen, hb'.real_seen, hcell]
  have hlevel := hlike.real?_level
  cases hf : (s.fact i).real? with
  | none =>
    rw [hf, Option.map_none, Option.map_eq_none_iff] at hlevel
    rw [hlevel]
    exact ⟨_, _, rfl, rfl, .inl rfl⟩
  | some x =>
    rw [hf, Option.map_some] at hlevel
    obtain ⟨y, hy, hyx⟩ := Option.map_eq_some_iff.mp hlevel
    rw [hy]
    refine ⟨x, y, rfl, rfl, .inr ?_⟩
    rw [Number.eq_iff_level ((hb.plain.fact i).real? hf) ((hb'.plain.fact i).real? hy)]
    exact hyx.symm

/-- A run that starts with nothing known about `cells`, after a history. -/
def afterHistory (as : List Action) : BankM Unit := do
  reenter
  as.forM Action.perform

/-- What the accessors answer after any history: the marks as they are, the payload as the number that
it was last written as, and nothing of that changes by an access to another cell. -/
theorem accessors_faithful (cells : Array Cell) (useCache : Bool) (fresh : Nat) (as : List Action)
    (valid : ∀ a ∈ as, a.Valid cells.size) :
    ∃ b, afterHistory as (ofCells cells useCache true fresh) = .ok () b ∧
      b.cells = as.foldl (fun cells a => a.write cells) cells ∧
      (∀ i < cells.size,
        let last := as.foldl (fun w a => a.lastPart w) (fun _ => none) i
        (flags i).run' b = some (b.cellAt i).flags ∧
        (last ≠ some .real → (int i).run' b = some (b.cellAt i).int) ∧
        (last ≠ some .int →
          ∃ x, (real i).run' b = some x ∧ (Number.real (b.cellAt i).real).Same x)) ∧
      ∀ i < cells.size, ∀ a : Access, a.Valid →
        ∃ b', a.perform i b = .ok () b' ∧ ∀ j < cells.size, j ≠ i →
          (flags j).run' b' = (flags j).run' b ∧ (int j).run' b' = (int j).run' b ∧
          ∃ x y, (real j).run' b = some x ∧ (real j).run' b' = some y ∧ x.Same y := by
  obtain ⟨b₀, s₀, hrun₀, hcells₀, hf₀⟩ := reenter_faithful cells useCache fresh
  obtain ⟨b, s, hrun, hcells, hf⟩ := hf₀.run (hcells₀ ▸ valid)
  rw [hcells₀] at hcells
  have hsize : b.cells.size = cells.size := by rw [hcells, Action.size_history]
  refine ⟨b, (bind_of_ok hrun₀).trans hrun, hcells, ?_, ?_⟩
  · intro i _
    exact ⟨hf.flags_seen i, hf.int_seen, hf.real_seen⟩
  · intro i hi a ha
    obtain ⟨b', t, hrun', _, hf', elsewhere⟩ := hf.access (hsize ▸ hi) ha
    refine ⟨b', hrun', fun j _ hji => ?_⟩
    obtain ⟨hcell, hlike⟩ := elsewhere j hji
    refine ⟨?_, ?_, real_seen_same hf.keeps hf'.keeps hlike hcell⟩
    · rw [hf.flags_seen, hf'.flags_seen, hcell]
    · rw [hf.keeps.int_seen, hf'.keeps.int_seen, hcell, hlike.int?_eq]

/-- The second cell is marked between two constants of the first one. -/
def zeroHistory : List Action :=
  [.on 0 (.setReal ⟨0x4004000000000000⟩ true), .on 1 (.setFlags .onlyInt),
    .on 0 (.setReal ⟨0x8000000000000000⟩ true), .on 0 .getReal]

theorem accessors_faithful_zeroHistory :
    (∀ a ∈ zeroHistory, a.Valid (#[{}, {}] : Array Cell).size) ∧
      ∃ b, afterHistory zeroHistory (ofCells #[{}, {}] true true 0) = .ok () b ∧
        (flags 1).run' b = some .onlyInt := by
  have valid : ∀ a ∈ zeroHistory, a.Valid (#[{}, {}] : Array Cell).size := by
    decide
  obtain ⟨b, hrun, hcells, hseen, _⟩ := accessors_faithful #[{}, {}] true 0 zeroHistory valid
  refine ⟨valid, b, hrun, ?_⟩
  rw [(hseen 1 (by decide)).1, cellAt, hcells]
  rfl

/-- Forgetting the second cell turns the zero that is seen in the first one into another zero. -/
theorem zero_seen_changes_elsewhere :
    (do afterHistory zeroHistory; real 0).run' (ofCells #[{}, {}] true true 0) =
        some (.real ⟨0x8000000000000000⟩) ∧
      (do afterHistory zeroHistory; Access.forget.perform 1; real 0).run'
        (ofCells #[{}, {}] true true 0) = some (.int 0) := by
  decide +kernel

end Bank

end QueryMachine
