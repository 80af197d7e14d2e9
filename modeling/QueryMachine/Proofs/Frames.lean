import Mathlib
import QueryMachine.Proofs.CellRules
import QueryMachine.Proofs.Knowing

/-!
Frames: what a computation leaves as it was, whether it answers or gives up. The rules on registers add
and remove no cells, leave the knowledge on the side where it is held, and leave a sheet that can be changed.
-/

namespace QueryMachine

/-- The state that a computation ends in, with or without an answer. -/
def after {ε σ α : Type} (x : EStateM ε σ α) (s : σ) : σ :=
  match x s with
  | .ok _ s' => s'
  | .error _ s' => s'

theorem after_of_ok {ε σ α : Type} {x : EStateM ε σ α} {s s' : σ} {a : α} (h : x s = .ok a s') :
    after x s = s' := by
  rw [after, h]

theorem after_of_error {ε σ α : Type} {x : EStateM ε σ α} {s s' : σ} {e : ε} (h : x s = .error e s') :
    after x s = s' := by
  rw [after, h]

theorem ok_after_of_run' {ε σ α : Type} {x : EStateM ε σ α} {s : σ} {a : α} (h : x.run' s = some a) :
    x s = .ok a (after x s) := by
  obtain ⟨s', hrun⟩ := eq_ok_of_answer h
  rw [after_of_ok hrun, hrun]

theorem after_bind_of_ok {ε σ α β : Type} {x : EStateM ε σ α} {k : α → EStateM ε σ β} {s s' : σ} {a : α}
    (h : x s = .ok a s') : after (x >>= k) s = after (k a) s' := by
  rw [after, after, bind_of_ok h]

/-- A relation between the states before and after a computation that goes from step to step. -/
structure Frame (σ : Type) where
  rel : σ → σ → Prop
  refl (s : σ) : rel s s
  trans {s s₁ s₂ : σ} : rel s s₁ → rel s₁ s₂ → rel s s₂

/-- The state after the computation is as the frame says, with or without an answer. -/
def Frame.Keeps {σ α : Type} (F : Frame σ) (x : EStateM Fault σ α) : Prop := ∀ s, F.rel s (after x s)

namespace Frame.Keeps

variable {σ α β : Type} {F : Frame σ}

@[grind ←]
theorem pure (a : α) : F.Keeps (pure a) := fun s => F.refl s

@[grind ←]
theorem throw (e : Fault) : F.Keeps (throw e : EStateM Fault σ α) := fun s => F.refl s

@[grind ←]
theorem get : F.Keeps get := fun s => F.refl s

theorem after_bind {x : EStateM Fault σ α} {k : α → EStateM Fault σ β} (hk : ∀ a, F.Keeps (k a)) {s : σ}
    (hs : F.rel s (after x s)) : F.rel s (after (x >>= k) s) := by
  cases h : x s with
  | error e s₁ =>
    rw [after_of_error h] at hs
    rw [after_of_error (bind_of_error h)]
    exact hs
  | ok a s₁ =>
    rw [after_of_ok h] at hs
    rw [after_bind_of_ok h]
    exact F.trans hs (hk a s₁)

@[grind ←]
theorem bind {x : EStateM Fault σ α} {k : α → EStateM Fault σ β} (hx : F.Keeps x)
    (hk : ∀ a, F.Keeps (k a)) : F.Keeps (x >>= k) := fun s => after_bind hk (hx s)

theorem modify {f : σ → σ} (hf : ∀ s, F.rel s (f s)) : F.Keeps (modify f : EStateM Fault σ PUnit) := hf

theorem composes : Composes fun (α : Type) (x : EStateM Fault σ α) => F.Keeps x := ⟨pure, throw, bind⟩

@[grind ←]
theorem map {x : EStateM Fault σ α} (hx : F.Keeps x) (g : α → β) : F.Keeps (g <$> x) := composes.map hx g

@[grind ←]
theorem discard {x : EStateM Fault σ α} (hx : F.Keeps x) : F.Keeps (discard x : EStateM Fault σ PUnit) :=
  hx.map _

theorem ite {p : Prop} [Decidable p] {x y : EStateM Fault σ α} (hx : F.Keeps x) (hy : F.Keeps y) :
    F.Keeps (if p then x else y) := by
  split
  · exact hx
  · exact hy

@[grind ←]
theorem check (p : Bool) : F.Keeps (check p) := composes.check p

@[grind ←]
theorem expect (e : Fault) (o : Option α) : F.Keeps (expect e o) := composes.expect e o

@[grind ←]
theorem forIn {γ : Type} {xs : List γ} {b : β} {f : γ → β → EStateM Fault σ (ForInStep β)}
    (h : ∀ a b, F.Keeps (f a b)) : F.Keeps (forIn xs b f) :=
  composes.forIn fun a _ => h a

@[grind ←]
theorem mapM {γ : Type} {xs : List γ} {f : γ → EStateM Fault σ β} (h : ∀ a, F.Keeps (f a)) :
    F.Keeps (xs.mapM f) :=
  composes.mapM fun a _ => h a

@[grind ←]
theorem foldlM {γ : Type} {xs : List γ} {f : β → γ → EStateM Fault σ β} {b : β}
    (h : ∀ b a, F.Keeps (f b a)) : F.Keeps (xs.foldlM f b) :=
  composes.foldlM fun a _ b => h b a

end Frame.Keeps

/-- The knowledge stays on the side where it is held, and none gets lost. -/
structure Holder.Abides (h h' : Holder) : Prop where
  blank : h'.blank = h.blank
  useCache : h'.useCache = h.useCache
  inside : h'.inside.isSome = h.inside.isSome
  outside : h.inside.isSome → h'.outside = h.outside
  current : h.current?.isSome → h'.current?.isSome

theorem Holder.Abides.refl (h : Holder) : h.Abides h := ⟨rfl, rfl, rfl, fun _ => rfl, id⟩

theorem Holder.Abides.trans {h h₁ h₂ : Holder} (h₀ : h.Abides h₁) (h' : h₁.Abides h₂) : h.Abides h₂ :=
  ⟨h'.blank.trans h₀.blank, h'.useCache.trans h₀.useCache, h'.inside.trans h₀.inside,
    fun hs => (h'.outside (h₀.inside.trans hs)).trans (h₀.outside hs), fun hs => h'.current (h₀.current hs)⟩

namespace Bank

/-- No cell is added or removed, and the knowledge stays on the side where it is held. -/
structure Lasts (b b' : Bank) : Prop where
  size : b'.cells.size = b.cells.size
  reach : b'.reach = b.reach
  indexed : b'.indexed = b.indexed
  holder : b.holder.Abides b'.holder

/-- Besides, there is still a sheet that can be changed. -/
structure Abides (b b' : Bank) : Prop extends b.Lasts b' where
  kept : b.Kept → b'.Kept

def lasting : Frame Bank where
  rel := Lasts
  refl _ := ⟨rfl, rfl, rfl, .refl _⟩
  trans h h' :=
    ⟨h'.size.trans h.size, h'.reach.trans h.reach, h'.indexed.trans h.indexed, h.holder.trans h'.holder⟩

def keeping : Frame Bank where
  rel b b' := b.Kept → b'.Kept
  refl _ := id
  trans h h' := h' ∘ h

def abiding : Frame Bank where
  rel := Abides
  refl b := ⟨lasting.refl b, id⟩
  trans h h' := ⟨lasting.trans h.toLasts h'.toLasts, h'.kept ∘ h.kept⟩

variable {α β : Type} {b : Bank} {s : Sheet}

theorem abiding_of {x : BankM α} (hl : lasting.Keeps x) (hk : keeping.Keeps x) : abiding.Keeps x :=
  fun b => ⟨hl b, hk b⟩

theorem lasting_of_abiding {x : BankM α} (hx : abiding.Keeps x) : lasting.Keeps x := fun b => (hx b).toLasts

theorem keeping_of_abiding {x : BankM α} (hx : abiding.Keeps x) : keeping.Keeps x := fun b => (hx b).kept

theorem Lasts.extent {b' : Bank} (h : b.Lasts b') : b'.extent = b.extent := by
  rw [Bank.extent, h.size, h.reach, h.indexed, Bank.extent]

theorem abides_of_extent {b' : Bank} (hb : b'.extent = b.extent) (hh : b'.holder = b.holder)
    (hl : b'.ledger = b.ledger) : b.Abides b' where
  size := congrArg Extent.size hb
  reach := congrArg Extent.reach hb
  indexed := congrArg Extent.indexed hb
  holder := by rw [hh]; exact .refl _
  kept := by
    rintro ⟨s, hk⟩
    exact ⟨s, hk.carry hh hl (congrArg Extent.indexed hb) (congrArg Extent.size hb)⟩

theorem abiding_of_oblivious {x : BankM α} (hx : Oblivious x) : abiding.Keeps x := by
  intro b
  have hrun := hx (b.holder, b.ledger) b
  have hself : Veiled.veil (b.holder, b.ledger) b = b := rfl
  rw [hself] at hrun
  cases h : x b with
  | ok a b' =>
    rw [h] at hrun
    have heq : b' = Veiled.veil (b.holder, b.ledger) b' := by injection hrun.1
    rw [after_of_ok h]
    exact abides_of_extent hrun.2 (by rw [heq]; rfl) (by rw [heq]; rfl)
  | error e b' =>
    rw [h] at hrun
    have heq : b' = Veiled.veil (b.holder, b.ledger) b' := by injection hrun.1
    rw [after_of_error h]
    exact abides_of_extent hrun.2 (by rw [heq]; rfl) (by rw [heq]; rfl)

/-! The rules that look at cells and write them. -/

section Cells

@[grind ←]
theorem abiding_cell (r : Nat) : abiding.Keeps (cell r) := abiding_of_oblivious (oblivious_cell r)

@[grind ←]
theorem abiding_setCell (r : Nat) (c : Cell) : abiding.Keeps (setCell r c) :=
  abiding_of_oblivious (oblivious_setCell r c)

@[grind ←]
theorem abiding_modifyCell (r : Nat) (f : Cell → Cell) : abiding.Keeps (modifyCell r f) :=
  abiding_of_oblivious (oblivious_modifyCell r f)

@[grind ←]
theorem abiding_putCell (r : Nat) (c : Cell) : abiding.Keeps (putCell r c) :=
  abiding_of_oblivious (oblivious_putCell r c)

@[grind ←]
theorem abiding_freshName : abiding.Keeps freshName := abiding_of_oblivious oblivious_freshName

@[grind ←]
theorem abiding_modifyCellWith (r : Nat) (f : Nat → Cell → Cell) : abiding.Keeps (modifyCellWith r f) :=
  abiding_of_oblivious (oblivious_modifyCellWith r f)

@[grind ←]
theorem abiding_register (i : Int) : abiding.Keeps (register i) := abiding_of_oblivious (oblivious_register i)

@[grind ←]
theorem abiding_slot (i : Int) : abiding.Keeps (slot i) := abiding_of_oblivious (oblivious_slot i)

@[grind ←]
theorem abiding_parameter (i : Int) : abiding.Keeps (parameter i) :=
  Frame.Keeps.get.bind fun _ => (Frame.Keeps.expect _ _).bind fun _ => .pure _

end Cells

/-! The rules that look up what is known and take note of it. -/

section Knowledge

@[grind ←]
theorem abiding_current? : abiding.Keeps current? := Frame.Keeps.get.bind fun _ => .pure _

@[grind ←]
theorem abiding_current : abiding.Keeps current := abiding_current?.bind fun _ => .expect _ _

@[grind ←]
theorem lasting_current : lasting.Keeps current := lasting_of_abiding abiding_current

@[grind ←]
theorem lasting_cell (r : Nat) : lasting.Keeps (cell r) := lasting_of_abiding (abiding_cell r)

@[grind ←]
theorem lasting_modifyCell (r : Nat) (f : Cell → Cell) : lasting.Keeps (modifyCell r f) :=
  lasting_of_abiding (abiding_modifyCell r f)

@[grind ←]
theorem lasting_withLedger (x : LedgerM α) : lasting.Keeps (withLedger x) := by
  intro b
  have hledger (l : Ledger) : b.Lasts { b with ledger := l } := ⟨rfl, rfl, rfl, .refl _⟩
  cases h : x b.ledger with
  | ok a l =>
    have hrun : withLedger x b = .ok a { b with ledger := l } := by rw [withLedger, h]
    rw [after_of_ok hrun]
    exact hledger l
  | error e l =>
    have hrun : withLedger x b = .error e { b with ledger := l } := by rw [withLedger, h]
    rw [after_of_error hrun]
    exact hledger l

theorem abides_remember (h : Holder) (s : Sheet) :
    h.Abides (if h.inside.isSome then { h with inside := some (if h.useCache then some s else some h.blank) }
      else { h with outside := if h.useCache then some s else some h.blank }) := by
  obtain ⟨blank, outside, inside, useCache⟩ := h
  cases inside with
  | none => exact ⟨rfl, rfl, rfl, (fun hi => by cases hi), fun _ => by cases useCache <;> rfl⟩
  | some s' => exact ⟨rfl, rfl, rfl, fun _ => rfl, fun _ => by cases useCache <;> rfl⟩

@[grind ←]
theorem lasting_remember (s : Sheet) : lasting.Keeps (remember (some s)) :=
  .modify fun b => ⟨rfl, rfl, rfl, abides_remember b.holder s⟩

theorem keeping_current {k : Sheet → BankM α} (hk : ∀ b s, b.Keeps s → (after (k s) b).Kept) :
    keeping.Keeps (current >>= k) := by
  rintro b ⟨s, hs⟩
  rw [after_bind_of_ok hs.current_run]
  exact hk b s hs

theorem Keeps.kept_note {facts : List Fact} {x : LedgerM Sheet} {y : PUnit → BankM α} (hb : b.Keeps s)
    (hx : Sheet.Yields x facts) (hw : facts.length = b.cells.size) (hy : ∀ v, keeping.Keeps (y v)) :
    (after (do y (← remember (← withLedger x))) b).Kept := by
  obtain ⟨b', hrun, hn⟩ := hb.note hx hw
  obtain ⟨t, ht, -⟩ := hn.keeps
  rw [← bind_assoc, after_bind_of_ok hrun]
  exact hy _ b' ⟨t, ht⟩

@[grind ←]
theorem abiding_forgetFact (r : Nat) : abiding.Keeps (forgetFact r) := by
  refine abiding_of (by grind [forgetFact]) (keeping_current fun b s hs => ?_)
  obtain ⟨b', hrun, hn⟩ := hs.note (Sheet.forget_yields hs.plain r) (hs.width_modify r _)
  rw [after_of_ok hrun]
  exact hn.keeps.imp fun _ h => h.1

@[grind ←]
theorem abiding_forgetAt (i : Int) : abiding.Keeps (forgetAt i) := by
  refine abiding_current.bind fun s => .bind (fun b => ?_) fun k => abiding_forgetFact k
  rw [Sheet.position]
  split <;> exact abiding.refl b

@[grind ←]
theorem abiding_forgetAll : abiding.Keeps forgetAll := by
  refine abiding_of (by grind [forgetAll]) ?_
  rintro b ⟨s, hs⟩
  obtain ⟨b', hrun, hn⟩ := hs.forgetAll_run
  rw [after_of_ok hrun]
  exact hn.keeps.imp fun _ h => h.1

@[grind ←]
theorem abiding_flags (r : Nat) : abiding.Keeps (flags r) := by
  refine abiding_of (by grind [flags]) (.bind (keeping_of_abiding (abiding_cell r)) fun c => Frame.Keeps.get.bind fun _ =>
    .ite (keeping_current fun b s hs => ?_) (.pure _))
  dsimp only
  split
  · exact Frame.Keeps.after_bind (F := keeping) (fun _ => .pure _) (Frame.Keeps.check (F := keeping) _ b) ⟨s, hs⟩
  · exact hs.kept_note (Sheet.setFlags_yields hs.plain r _) (hs.width_modify r _) fun _ => .pure _

@[grind ←]
theorem abiding_noteFlags (write : Bool) (r : Nat) (f : Flags) : abiding.Keeps (noteFlags write r f) := by
  have hput : abiding.Keeps
      (if write then modifyCell r fun c => { c with flags := f } else pure () : BankM Unit) := by
    cases write
    · exact .pure _
    · exact abiding_modifyCell r _
  have hcheck (s : Sheet) : abiding.Keeps (do
      let c ← cell r
      check ((s.fact r).known.flags && (s.fact r).flags == f && c.flags == f)) :=
    (abiding_cell r).bind fun _ => .check _
  refine abiding_of ?_ ?_
  · refine Frame.Keeps.get.bind fun b => .ite ((lasting_of_abiding abiding_current).bind fun s => .ite (.pure _) ?_)
      (lasting_of_abiding hput)
    refine (lasting_of_abiding hput).bind fun _ => Frame.Keeps.get.bind fun b => .ite ?_ (.pure _)
    exact (lasting_withLedger _).bind fun s => (lasting_remember s).bind fun _ =>
      lasting_of_abiding (abiding_current.bind fun s => hcheck s)
  · refine Frame.Keeps.get.bind fun b => .ite (keeping_current fun b s hs => ?_) (keeping_of_abiding hput)
    dsimp only
    split
    · exact ⟨s, hs⟩
    · -- the cell is written first; the sheet of the bank is still the one that was looked up
      obtain ⟨c, hrun⟩ : ∃ c, (if write then modifyCell r fun c => { c with flags := f } else pure () : BankM Unit) b =
          .ok () (b.withCell r c) := by
        cases write
        · exact ⟨b.cellAt r, by rw [withCell_cellAt]; rfl⟩
        · exact ⟨_, rfl⟩
      have hc := hs.withCell r c
      rw [after_bind_of_ok hrun, after_bind_of_ok get_run]
      split
      · exact hc.kept_note (Sheet.setFlags_yields hc.plain r f) (hc.width_modify r _) fun _ =>
          keeping_of_abiding (abiding_current.bind fun s => hcheck s)
      · exact ⟨s, hc⟩

@[grind ←]
theorem abiding_setFlags (r : Nat) (f : Flags) : abiding.Keeps (setFlags r f) := abiding_noteFlags true r f

@[grind ←]
theorem abiding_int (r : Nat) : abiding.Keeps (int r) := by grind [int]

@[grind ←]
theorem abiding_real (r : Nat) : abiding.Keeps (real r) := by grind [real]

@[grind ←]
theorem abiding_setInt (r : Nat) (n : Int) (constant : Bool) : abiding.Keeps (setInt r n constant) := by
  refine abiding_of (by grind [setInt]) ?_
  rintro b ⟨s, hs⟩
  cases hn : fitsWord n with
  | false => rw [after_of_error (setInt_run_of_not_fits b r hn constant)]; exact ⟨s, hs⟩
  | true =>
    obtain ⟨b', hrun, hn⟩ := hs.setInt_run r hn constant
    rw [after_of_ok hrun]
    exact hn.keeps.imp fun _ h => h.1

theorem lasting_setReal (r : Nat) (x : Number) (constant : Bool) : lasting.Keeps (setReal r x constant) := by
  grind [setReal]

@[grind ←]
theorem abiding_setReal (r : Nat) (x : Number) : abiding.Keeps (setReal r x false) := by
  refine abiding_of (lasting_setReal r x false) ?_
  rintro b ⟨s, hs⟩
  obtain ⟨b', hrun, hn⟩ := hs.setReal_run r (x := x) fun h : false = true => by cases h
  rw [after_of_ok hrun]
  exact hn.keeps.imp fun _ h => h.1

/-- A constant is noted if it is a finite double, and refused if not. -/
@[grind ←]
theorem abiding_setConstant (r : Nat) (x : Double) : abiding.Keeps (setReal r (.real x) true) := by
  refine abiding_of (lasting_setReal r _ true) ?_
  rintro b ⟨s, hs⟩
  by_cases hx : x.isFinite = true
  · obtain ⟨b', hrun, hn⟩ := hs.setReal_run r (x := .real x) fun _ : true = true => hx
    rw [after_of_ok hrun]
    exact hn.keeps.imp fun _ h => h.1
  · have hc := hs.withCell r ((b.cellAt r).withPayload x.bits)
    by_cases hr : r < b.cells.size
    · obtain ⟨l, hrun, hl⟩ := hs.setReal_run_of_not_finite hr (by simpa using hx)
      rw [after_of_error hrun]
      exact ⟨s, hc.indexed, hc.current, hc.plain, hc.width, hl, hc.blank, hc.unused⟩
    · have hput : modifyCell r (fun c => { c with payload := (Number.real x).toDouble.bits }) b =
          .ok () (b.withCell r ((b.cellAt r).withPayload x.bits)) := rfl
      have hlength : s.facts.length ≤ r := by rw [hs.width]; exact Nat.le_of_not_lt hr
      rw [setReal, after_bind_of_ok hput, after_bind_of_ok get_run, if_pos hc.indexed, after_bind_of_ok hc.current_run,
        if_pos rfl]
      obtain ⟨b', hrun, hn⟩ := hc.note (Sheet.setConstantReal_beyond hc.plain hlength _) hc.width
      rw [after_of_ok hrun]
      exact hn.keeps.imp fun _ h => h.1

@[grind ←]
theorem abiding_isConstantInt (r : Nat) : abiding.Keeps (isConstantInt r) := by grind [isConstantInt]

@[grind ←]
theorem abiding_invalidate (r : Nat) : abiding.Keeps (invalidate r) := by grind [invalidate]

@[grind ←]
theorem abiding_checkFacts (r : Nat) : abiding.Keeps (checkFacts r) := by
  refine Frame.Keeps.get.bind fun _ => .ite (abiding_current.bind fun s => (abiding_cell r).bind fun c => ?_) (.pure _)
  have hint : abiding.Keeps
      (if (s.fact r).known.int then do check (c.int == (← int r)) else pure () : BankM Unit) := by
    grind
  refine .ite ((abiding_flags r).bind fun _ => (Frame.Keeps.check _).bind fun _ => ?_) ?_ <;>
    exact .ite ((abiding_real r).bind fun _ => (Frame.Keeps.check _).bind fun _ => hint) hint

end Knowledge

/-! The rules by which registers change. -/

section Registers

@[grind ←]
theorem abiding_truncate (x : Number) : abiding.Keeps (truncate x) := by
  unfold truncate
  split
  · exact .pure _
  · split
    · exact .pure _
    · exact .throw _

@[grind ←]
theorem abiding_direct (r : Nat) (rule : Nat → Cell → Cell) : abiding.Keeps (direct r rule) := by grind [direct]

@[grind ←]
theorem abiding_retype (r : Nat) (kind : Flags) : abiding.Keeps (retype r kind) := by grind [retype]

@[grind ←]
theorem abiding_isDynamic (r : Nat) : abiding.Keeps (isDynamic r) := by grind [isDynamic]

@[grind ←]
theorem abiding_releaseExtern (r : Nat) : abiding.Keeps (releaseExtern r) := by
  grind [releaseExtern, clearExtern]

@[grind ←]
theorem abiding_release (r : Nat) : abiding.Keeps (release r) := by grind [release, clearStorage]

@[grind ←]
theorem abiding_setNull (r : Nat) : abiding.Keeps (setNull r) := by grind [setNull]

@[grind ←]
theorem abiding_setInteger (r : Nat) (n : Int) (constant : Bool) : abiding.Keeps (setInteger r n constant) := by
  grind [setInteger]

@[grind ←]
theorem abiding_setDouble (r : Nat) (x : Number) : abiding.Keeps (setDouble r x) := by grind [setDouble]

@[grind ←]
theorem abiding_intValue (r : Nat) : abiding.Keeps (intValue r) := by grind [intValue]

@[grind ←]
theorem abiding_realValue (r : Nat) : abiding.Keeps (realValue r) := by grind [realValue]

@[grind ←]
theorem abiding_integerAffinity (r : Nat) : abiding.Keeps (integerAffinity r) := by grind [integerAffinity]

@[grind ←]
theorem abiding_integerify (r : Nat) : abiding.Keeps (integerify r) := by grind [integerify]

@[grind ←]
theorem abiding_realify (r : Nat) : abiding.Keeps (realify r) := by grind [realify]

@[grind ←]
theorem abiding_numerify (r : Nat) : abiding.Keeps (numerify r) := by grind [numerify]

@[grind ←]
theorem abiding_stringify (r : Nat) (force : Bool) : abiding.Keeps (stringify r force) := abiding_direct r _

@[grind ←]
theorem abiding_nulTerminate (r : Nat) : abiding.Keeps (nulTerminate r) := by grind [nulTerminate]

@[grind ←]
theorem abiding_applyNumericAffinity (r : Nat) (tryInt : Bool) : abiding.Keeps (applyNumericAffinity r tryInt) :=
  abiding_direct r _

@[grind ←]
theorem abiding_applyAffinity (r : Nat) (code : Int) : abiding.Keeps (applyAffinity r code) := by
  grind [applyAffinity]

@[grind ←]
theorem abiding_cast (r : Nat) (code : Int) : abiding.Keeps (Bank.cast r code) := by
  refine (abiding_flags r).bind fun f => .ite (.pure _) ?_
  cases Affinity.ofCode? code with
  | none => exact .throw _
  | some a => cases a <;> grind

@[grind ←]
theorem abiding_numericType (r : Nat) : abiding.Keeps (numericType r) := by grind [numericType]

@[grind ←]
theorem abiding_isValid (r : Nat) : abiding.Keeps (isValid r) := by grind [isValid]

@[grind ←]
theorem abiding_expandBlob (r : Nat) : abiding.Keeps (expandBlob r) := by grind [expandBlob]

@[grind ←]
theorem abiding_grow (r n : Nat) (preserve : Bool) : abiding.Keeps (grow r n preserve) := abiding_direct r _

@[grind ←]
theorem abiding_shallowCopy (r j : Nat) (loan : Option Cell.Loan) : abiding.Keeps (shallowCopy r j loan) := by
  have hpayload (f : Flags) : abiding.Keeps (takePayload r j f) := by grind [takePayload]
  have hstring (f : Flags) : abiding.Keeps (takeString r j f loan) := by
    unfold takeString
    cases f.static <;> cases loan <;> grind
  grind [shallowCopy]

@[grind ←]
theorem abiding_moveFrom (r j : Nat) : abiding.Keeps (Bank.moveFrom r j) := by
  have hcopy : abiding.Keeps (copyWhole r j) := by grind [copyWhole]
  grind [Bank.moveFrom]

@[grind ←]
theorem abiding_makeWriteable (r : Nat) : abiding.Keeps (makeWriteable r) := by grind [makeWriteable]

@[grind ←]
theorem abiding_compare (r j : Nat) (coll : Option Collation) : abiding.Keeps (Bank.compare r j coll) := by
  have hrounded (r : Nat) (f : Flags) : abiding.Keeps (rounded r f) := by grind [rounded]
  refine (abiding_flags r).bind fun f => (abiding_flags j).bind fun g => .ite (.pure _) (.ite (.ite ?_ ?_) ?_)
  · grind
  · refine .ite (.pure _) ((hrounded r f).bind fun x => .ite (.pure _) ((hrounded j g).bind fun y => .pure _))
  · grind

@[grind ←]
theorem abiding_serialForm (r : Nat) (format : Int) : abiding.Keeps (serialForm r format) := by
  grind [serialForm]

@[grind ←]
theorem abiding_serialBytesOfLength (r n : Nat) : abiding.Keeps (serialBytesOfLength r n) := by
  grind [serialBytesOfLength]

@[grind ←]
theorem abiding_valueKind (r : Nat) : abiding.Keeps (valueKind r) := by grind [valueKind]

@[grind ←]
theorem abiding_numericKind (r : Nat) : abiding.Keeps (numericKind r) := by grind [numericKind]

@[grind ←]
theorem abiding_valueText (r : Nat) : abiding.Keeps (valueText r) := by
  refine (abiding_flags r).bind fun f => (Frame.Keeps.check _).bind fun _ => (abiding_cell r).bind fun c => ?_
  refine .ite (.pure _) (.ite (.pure _) ?_)
  grind

@[grind ←]
theorem abiding_valueBytes (r : Nat) : abiding.Keeps (valueBytes r) := by grind [valueBytes]

@[grind ←]
theorem abiding_value (r : Nat) : abiding.Keeps (value r) := by
  have hdata : abiding.Keeps (valueData r) := by grind [valueData]
  refine (abiding_valueKind r).bind fun kind => ?_
  cases kind <;> grind

@[grind ←]
theorem abiding_setText (r : Nat) (bytes : Bytes) : abiding.Keeps (setText r bytes) := abiding_direct r _

end Registers

end Bank

end QueryMachine
