import Mathlib
import QueryMachine.Machine.Statement
import QueryMachine.Proofs.CellRules
import QueryMachine.Proofs.Flows
import QueryMachine.Proofs.Shadows

/-!
The rules that go through the knowledge about the registers are clear: where everything that is known is exact,
they do what they would do without knowledge. Some rely on less, and some leave less to be relied on.
-/

namespace QueryMachine

namespace Fact

variable {L : Fact → Cell → Prop} {f : Fact} {c : Cell} {g : Flags}

/-! What the rules rely on. -/

/-- An integer or a double of a cell that is marked so is exact. -/
structure Legible (f : Fact) (c : Cell) : Prop where
  int : c.flags.int = true → f.IntExact c
  real : c.flags.real = true → f.RealExact c

theorem Guarded.legible (h : f.Guarded c) : f.Legible c := ⟨h.int, h.real⟩

theorem Sure.legible (h : f.Sure c) : f.Legible c := ⟨fun _ => h.int, fun _ => h.real⟩

theorem Outer.legible (h : f.Outer c) : f.Legible c := ⟨fun _ => h.intExact, fun _ => h.realExact⟩

theorem creed_legible : Creed Legible := by
  have h := (creed_intExact.when fun g => g.int = true).and (creed_realExact.when fun g => g.real = true)
  have hiff (f c) : Legible f c ↔ (c.flags.int = true → f.IntExact c) ∧ (c.flags.real = true → f.RealExact c) :=
    ⟨fun h => ⟨h.int, h.real⟩, fun h => ⟨h.1, h.2⟩⟩
  simpa only [← hiff] using h

theorem int?_of_nothing (h : f.known = .nothing) : f.int? = none := int?_of_unknown (by rw [h]; rfl)

theorem real?_of_nothing (h : f.known = .nothing) : f.real? = none := real?_of_unknown (by rw [h]; rfl)

theorem real?_eq_none_of_like {f g : Fact} (h : f.Like g) (hg : g.real? = none) : f.real? = none := by
  have := h.isSome_real?
  rwa [hg, Option.isSome_none, Option.isSome_eq_false_iff, Option.isNone_iff_eq_none] at this

theorem creed_intless : Creed fun f _ => f.int? = none where
  like h hl _ _ := hl.int?_eq.trans h
  parts h _ _ := h
  look h := h
  nothing := int?_of_nothing

theorem creed_realless : Creed fun f _ => f.real? = none where
  like h hl _ _ := real?_eq_none_of_like hl h
  parts h _ _ := h
  look h := h
  nothing := real?_of_nothing

/-- Of the payload nothing is known. -/
structure Silent (f : Fact) (c : Cell) : Prop where
  marks : f.Honest c
  int : f.int? = none
  real : f.real? = none

theorem creed_silent : Creed Silent := by
  have h := law_honest.creed.and (creed_intless.and creed_realless)
  have hiff (f c) : Silent f c ↔ f.Honest c ∧ f.int? = none ∧ f.real? = none :=
    ⟨fun h => ⟨h.marks, h.int, h.real⟩, fun h => ⟨h.1, h.2.1, h.2.2⟩⟩
  simpa only [← hiff] using h

theorem Silent.sure (h : f.Silent c) : f.Sure c := ⟨h.marks, intExact_of_none h.int, realExact_of_none h.real⟩

/-- No integer is known of a cell that is marked as an integer and as a double. -/
def Single (f : Fact) (c : Cell) : Prop := c.flags.int = true → c.flags.real = true → f.int? = none

theorem creed_single : Creed Single :=
  (creed_intless.when fun g => g.real = true).when fun g => g.int = true

/-- What a copy relies on, and leaves to the next one. -/
structure Movable (f : Fact) (c : Cell) : Prop extends Guarded f c where
  single : f.Single c

theorem creed_movable : Creed Movable := by
  have h := creed_guarded.and creed_single
  have hiff (f c) : Movable f c ↔ f.Guarded c ∧ f.Single c := ⟨fun h => ⟨h.toGuarded, h.single⟩, fun h => ⟨h.1, h.2⟩⟩
  simpa only [← hiff] using h

/-- What an instruction can rely on: everything that is known is exact, and no integer of a double. -/
structure Clean (f : Fact) (c : Cell) : Prop extends Sure f c where
  single : f.Single c

theorem Clean.movable (h : f.Clean c) : f.Movable c := ⟨h.toSure.guarded, h.single⟩

theorem creed_clean : Creed Clean := by
  have h := creed_sure.and creed_single
  have hiff (f c) : Clean f c ↔ f.Sure c ∧ f.Single c := ⟨fun h => ⟨h.toSure, h.single⟩, fun h => ⟨h.1, h.2⟩⟩
  simpa only [← hiff] using h

/-- What giving an affinity relies on: the payload of a cell that is no integer may be taken for a double. -/
structure Pliable (f : Fact) (c : Cell) : Prop extends Guarded f c where
  other : c.flags.int = false → f.RealExact c

theorem Sure.pliable (h : f.Sure c) : f.Pliable c := ⟨h.guarded, fun _ => h.real⟩

theorem creed_pliable : Creed Pliable := by
  have h := creed_guarded.and (creed_realExact.when fun g => g.int = false)
  have hiff (f c) : Pliable f c ↔ f.Guarded c ∧ (c.flags.int = false → f.RealExact c) :=
    ⟨fun h => ⟨h.toGuarded, h.other⟩, fun h => ⟨h.1, h.2⟩⟩
  simpa only [← hiff] using h

/-! What is noted. -/

/-- The marks `g` can be written where `L` is relied on. -/
def Markable (L : Fact → Cell → Prop) (g : Flags) : Prop :=
  ∀ f c, L f c → f.Honest c ∧ L (f.noteFlags g) (c.withFlags g)

theorem markable_honest (g : Flags) : Markable Honest g := fun f c h => ⟨h, honest_noteFlags f c g⟩

theorem markable_sure (g : Flags) : Markable Sure g := fun f c h => ⟨h.marks, honest_noteFlags f c g, h.int, h.real⟩

theorem int?_dropInt (f : Fact) : f.dropInt.int? = none := int?_of_unknown rfl

theorem real?_dropReal (f : Fact) : f.dropReal.real? = none := real?_of_unknown rfl

theorem int?_dropReal (h : f.int? = none) : f.dropReal.int? = none := by
  refine int?_of_unknown ?_
  by_contra hk
  have hk : f.known.int = true := by simpa [dropReal] using hk
  cases hc : f.known.constant <;> simp [int?, isConstantInt, hk, hc] at h

theorem real?_dropInt (h : f.real? = none) : f.dropInt.real? = none := by
  refine real?_of_unknown ?_
  by_contra hk
  have hk : f.known.real = true := by simpa [dropInt] using hk
  cases hc : f.known.constant <;> simp [real?, isConstantReal, hk, hc] at h

theorem honest_noteInt {n : Int} (constant : Bool) (p : UInt64) (h : f.Honest c) :
    ((if constant then Fact.noteInt n else Fact.dropInt) f).Honest (c.withPayload p) := by
  cases constant <;> exact h

/-- What can be relied on while only marks are, or nothing: it does not matter what is written. -/
structure Slack (L : Fact → Cell → Prop) : Prop extends Creed L where
  marks : ∀ {f c} g, L f c → L (f.noteFlags g) (c.withFlags g)
  int : ∀ {f c} p, L f c → L f.dropInt (c.withPayload p)
  real : ∀ {f c} p, L f c → L f.dropReal (c.withPayload p)

theorem slack_honest : Slack Honest :=
  { law_honest.creed with
    marks := fun {f c} g _ => honest_noteFlags f c g
    int := fun _ h => h
    real := fun _ h => h }

theorem slack_outer : Slack Outer :=
  { creed_outer with
    marks := fun _ h => h
    int := fun _ h => ⟨rfl, h.2⟩
    real := fun _ h => ⟨h.1, rfl⟩ }

end Fact

namespace Terms

variable {L : Fact → Cell → Prop} {P : Terms} {d : Bank.Dims} {i : Nat}

/-- Every cell can be read by its marks. -/
structure Reads (P : Terms) : Prop where
  creed : ∀ j, Fact.Creed (P j)
  legible : ∀ j f c, P j f c → f.Legible c

theorem sound_of_creed (h : ∀ j, Fact.Creed (P j)) : P.Sound := fun j => (h j).toTenet

theorem Reads.sound (h : P.Reads) : P.Sound := sound_of_creed h.creed

theorem reads_spread (hL : Fact.Creed L) (h : ∀ f c, L f c → f.Legible c) (d : Bank.Dims) : (spread d L).Reads := by
  refine ⟨creed_spread hL d, fun j f c hj => ?_⟩
  by_cases hlt : j < d.reach
  · rw [spread_of_lt hlt] at hj
    exact h f c hj
  · rw [spread, if_neg hlt] at hj
    exact hj.legible

/-- Every cell can be read, whatever its marks are. -/
structure Exact (P : Terms) : Prop where
  creed : ∀ j, Fact.Creed (P j)
  int : ∀ j f c, P j f c → f.IntExact c
  real : ∀ j f c, P j f c → f.RealExact c

theorem Exact.reads (h : P.Exact) : P.Reads := ⟨h.creed, fun j f c hj => ⟨fun _ => h.int j f c hj, fun _ => h.real j f c hj⟩⟩

theorem exact_sure (d : Bank.Dims) : (spread d Fact.Sure).Exact := by
  refine ⟨creed_spread Fact.creed_sure d, fun j f c hj => ?_, fun j f c hj => ?_⟩ <;> by_cases hlt : j < d.reach
  · rw [spread_of_lt hlt] at hj
    exact hj.int
  · rw [spread, if_neg hlt] at hj
    exact hj.intExact
  · rw [spread_of_lt hlt] at hj
    exact hj.real
  · rw [spread, if_neg hlt] at hj
    exact hj.realExact

theorem creed_any : Fact.Creed fun _ _ => True where
  like _ _ _ _ := trivial
  parts _ _ _ := trivial
  look _ := trivial
  nothing _ := trivial

/-- It does not matter what is written to a cell. -/
structure Loose (P : Terms) (i : Nat) : Prop where
  creed : ∀ j, Fact.Creed (P j)
  slack : Fact.Slack (P i)

theorem loose_spread (hL : Fact.Slack L) (d : Bank.Dims) : (spread d L).Loose i := by
  refine ⟨creed_spread hL.toCreed d, ?_⟩
  unfold spread
  split
  · exact hL
  · exact Fact.slack_outer

theorem loose_of_le (hL : Fact.Creed L) {d : Bank.Dims} (hi : d.reach ≤ i) : (spread d L).Loose i := by
  refine ⟨creed_spread hL d, ?_⟩
  rw [spread, if_neg (Nat.not_lt.mpr hi)]
  exact Fact.slack_outer

/-- In addition the marks that are known of a cell are true. -/
def honestAt (P : Terms) (i : Nat) : Terms := Function.update P i fun f c => P i f c ∧ f.Honest c

theorem of_honestAt {j : Nat} {f : Fact} {c : Cell} (h : P.honestAt i j f c) : P j f c := by
  have hall : ∀ j f c, P.honestAt i j f c → P j f c :=
    (Function.forall_update_iff P fun j L => ∀ f c, L f c → P j f c).mpr ⟨fun _ _ h => h.1, fun _ _ _ _ h => h⟩
  exact hall j f c h

theorem honestAt_self {f : Fact} {c : Cell} (h : P.honestAt i i f c) : f.Honest c := by
  rw [honestAt, Function.update_self] at h
  exact h.2

theorem honestAt_of_seen {g : Flags} {j : Nat} {f : Fact} {c : Cell} (h : P.seen i g j f c) : P.honestAt i j f c := by
  have hall : ∀ j f c, P.seen i g j f c → P.honestAt i j f c :=
    (Function.forall_update_iff P fun j L => ∀ f c, P.seen i g j f c → L f c).mpr
      ⟨fun _ _ h => ⟨of_seen h, (seen_self h).1⟩, fun _ _ _ _ h => of_seen h⟩
  exact hall j f c h

theorem creed_honestAt (hP : ∀ j, Fact.Creed (P j)) (i j : Nat) : Fact.Creed (P.honestAt i j) :=
  (Function.forall_update_iff P fun _ L => Fact.Creed L).mpr ⟨(hP i).and Fact.law_honest.creed, fun j _ => hP j⟩ j

end Terms

open Terms

namespace Bank

variable {α β : Type} {d : Dims} {P Q : Terms} {L M : Fact → Cell → Prop} {i r : Nat}

theorem clear_of_refused {x : BankM α} {S : α → Terms} (h : Answers (fun _ => False) x) : Clear d P x S :=
  fun s _ _ a s₁ hrun => (h s a s₁ hrun).elim

theorem refused_check {p : Bool} (hp : p = false) {k : Unit → BankM α} : Answers (fun _ => False) (check p >>= k) := by
  rw [hp]
  intro b a b₁ hrun
  cases hrun

theorem Dims.lt_size (hr : r < d.reach) : r < d.size := Nat.lt_of_lt_of_le hr d.fits

theorem clear_flags_bind (hP : P.Sound) (hi : i < d.size) {k : Flags → BankM β} {S : β → Terms}
    (hk : ∀ f, Clear d (P.seen i f) (k f) S) : Clear d P (flags i >>= k) S :=
  (clear_flags hP hi).bind hk

theorem still_flags_bind (hP : P.Sound) (hi : i < d.size) {k : Flags → BankM β} (hk : ∀ f, Still d (P.seen i f) (k f)) :
    Still d P (flags i >>= k) :=
  clear_flags_bind hP hi fun f => (hk f).weaken fun _ _ _ _ h => of_seen h

/-! What leaves alone all that is relied on. -/

section Creeds

variable (hP : ∀ j, Fact.Creed (P j)) (hi : i < d.size)

include hP hi

theorem still_marks : Still d P (flags i) := still_flags (sound_of_creed hP) hi

theorem still_isDynamic : Still d P (isDynamic i) := (still_marks hP hi).map _

theorem still_isValid : Still d P (isValid i) := (still_marks hP hi).map _

theorem still_valueKind : Still d P (valueKind i) := (still_marks hP hi).map _

theorem still_invalidate : Still d P (invalidate i) :=
  clear_invalidate hi (fun j => (hP j).like) (fun _ _ _ _ h => h) fun _ _ h => (hP i).nothing h

theorem still_forgetFact : Still d P (forgetFact i) :=
  clear_forgetFact hi (fun j => (hP j).like) (fun _ _ _ _ h => h) fun _ _ h => (hP i).nothing h

theorem still_direct (rule : Nat → Cell → Cell) : Still d P (direct i rule) :=
  clear_direct hi (sound_of_creed hP) (fun _ _ _ _ h => h) fun _ _ h => (hP i).nothing h

theorem still_clearExtern : Still d P (clearExtern i) := by
  have hmodify : Clear d P (modifyCell i Cell.clearExtern) fun _ => Function.update P i fun _ _ => True :=
    clear_modifyCell hi (fun j hj f c h => by rwa [Function.update_of_ne hj]) fun f c _ => by
      rw [Function.update_self]
      trivial
  refine hmodify.bind fun _ => clear_invalidate hi (fun j => (hP j).like) (fun j hj f c h => ?_) fun _ _ h =>
    (hP i).nothing h
  rwa [Function.update_of_ne hj] at h

theorem clear_releaseExtern : Clear d P (releaseExtern i) fun _ => P.honestAt i := by
  have hmarks : Clear d P (isDynamic i) fun _ => P.honestAt i :=
    clear_flags_bind (sound_of_creed hP) hi fun f => (Clear.pure _).weaken fun _ _ _ _ h => honestAt_of_seen h
  exact hmarks.bind fun _ => .ite (fun _ => still_clearExtern (creed_honestAt hP i) hi) fun _ => .pure _

theorem still_releaseExtern : Still d P (releaseExtern i) :=
  (clear_releaseExtern hP hi).weaken fun _ _ _ _ h => of_honestAt h

theorem still_modifyCell {g : Cell → Cell} (hflags : ∀ c, (g c).flags = c.flags) (hpayload : ∀ c, (g c).payload = c.payload) :
    Still d P (modifyCell i g) :=
  clear_modifyCell hi (fun _ _ _ _ h => h) fun _ c h => (hP i).parts h (hflags c) (hpayload c)

theorem still_clearStorage : Still d P (clearStorage i) :=
  (still_releaseExtern hP hi).bind fun _ => still_modifyCell hP hi (fun _ => rfl) fun _ => rfl

theorem clear_release : Clear d P (release i) fun _ => P.honestAt i :=
  (clear_releaseExtern hP hi).bind fun _ => (still_isDynamic (creed_honestAt hP i) hi).then_ fun _ =>
    (still_cell i).then_ fun _ => .ite (fun _ => still_clearStorage (creed_honestAt hP i) hi) fun _ => .pure _

theorem still_release : Still d P (release i) := (clear_release hP hi).weaken fun _ _ _ _ h => of_honestAt h

theorem still_nulTerminate : Still d P (nulTerminate i) :=
  (still_marks hP hi).bind fun _ => .ite (still_direct hP hi _) (.pure _)

theorem still_expandBlob : Still d P (expandBlob i) :=
  (still_marks hP hi).bind fun _ => .ite (still_direct hP hi _) (.pure _)

theorem still_numericKind : Still d P (numericKind i) :=
  (still_valueKind hP hi).bind fun _ =>
    .ite ((still_direct hP hi _).bind fun _ => still_valueKind hP hi) (still_valueKind hP hi)

theorem still_valueText : Still d P (valueText i) := by
  have hs := sound_of_creed hP
  refine (still_marks hP hi).bind fun f => (Still.check _).bind fun _ => (still_cell i).bind fun c => ?_
  refine .ite (.pure _) (.ite (.pure _) ?_)
  refine (clear_invalidate_nothing hi hs fun _ _ _ _ h => h).bind fun _ => still_freshName.then_ fun name => ?_
  refine (still_cell i).then_ fun c => ?_
  exact (clear_putCell_nothing hs fun _ _ h => (hP i).nothing h).bind fun _ => .pure _

theorem still_valueBytes : Still d P (valueBytes i) := by
  have hlength : Still d P (do
      let f ← flags i
      let c ← cell i
      return c.size + if f.zero then c.zeros else 0 : BankM Int) :=
    (still_marks hP hi).bind fun _ => (still_cell i).bind fun _ => .pure _
  refine (still_marks hP hi).bind fun f => .ite ((still_valueText hP hi).bind fun t => .ite (.pure _) ?_) ?_ <;>
    exact hlength

theorem still_valueData : Still d P (valueData i) :=
  (still_valueBytes hP hi).bind fun _ => (still_valueText hP hi).bind fun _ => .pure _

end Creeds

theorem still_truncate (x : Number) : Still d P (truncate x) := by
  unfold truncate
  split
  · exact .pure _
  · split
    · exact .pure _
    · exact .throw _

/-! What reads a cell by its marks. -/

section Reads

variable (hP : P.Reads) (hi : i < d.size)

include hP hi

theorem still_markedInt {f : Flags} (hf : f.int = true) : Still d (P.seen i f) (int i) :=
  still_int hi fun g c h => (hP.legible i g c (of_seen h)).int (by rw [(seen_self h).2, hf])

theorem still_markedReal {f : Flags} (hf : f.real = true) : Still d (P.seen i f) (real i) :=
  still_real hi fun g c h => (hP.legible i g c (of_seen h)).real (by rw [(seen_self h).2, hf])

theorem still_intValue : Still d P (intValue i) := by
  refine still_flags_bind hP.sound hi fun f => .branch (fun hf => still_markedInt hP hi hf) fun _ => ?_
  refine .branch (fun hf => (still_markedReal hP hi hf).bind fun x => still_truncate x) fun _ => ?_
  exact .ite ((still_cell i).bind fun _ => .pure _) (.pure _)

theorem still_realValue : Still d P (realValue i) := by
  refine still_flags_bind hP.sound hi fun f => .branch (fun hf => still_markedReal hP hi hf) fun _ => ?_
  refine .branch (fun hf => (still_markedInt hP hi hf).bind fun x => .pure _) fun _ => ?_
  exact .ite ((still_cell i).bind fun _ => .pure _) (.pure _)

theorem still_value : Still d P (value i) := by
  refine (still_valueKind hP.creed hi).bind fun k => ?_
  cases k with
  | integer => exact (still_intValue hP hi).bind fun _ => .pure _
  | float => exact (still_realValue hP hi).bind fun _ => .pure _
  | text => exact (still_valueData hP.creed hi).bind fun _ => .pure _
  | blob => exact (still_valueData hP.creed hi).bind fun _ => .pure _
  | null => exact .pure _

theorem still_serialForm (format : Int) : Still d P (serialForm i format) := by
  refine still_flags_bind hP.sound hi fun f => .ite (.pure _) ?_
  refine .branch (fun hf => (still_markedInt hP hi hf).bind fun _ => .pure _) fun _ => .ite (.pure _) ?_
  exact (still_cell i).bind fun _ => (Still.check _).bind fun _ => .pure _

theorem still_serialBytesOfLength (length : Nat) : Still d P (serialBytesOfLength i length) := by
  refine still_flags_bind hP.sound hi fun f => .ite (.pure _) ?_
  refine .branch (fun hf => (still_markedInt hP hi hf).bind fun _ => .pure _) fun _ => ?_
  refine .branch (fun hf => (still_markedReal hP hi hf).bind fun _ => .pure _) fun _ => ?_
  exact (still_cell i).bind fun _ => .pure _

end Reads

/-! What reads a cell whatever its marks are. -/

section Exact

variable (hP : P.Exact)

include hP

theorem still_exactInt (hi : i < d.size) : Still d P (int i) := still_int hi (hP.int i)

theorem still_exactReal (hi : i < d.size) : Still d P (real i) := still_real hi (hP.real i)

theorem still_rounded (hi : i < d.size) (f : Flags) : Still d P (rounded i f) :=
  .ite (still_exactReal hP hi) ((still_exactInt hP hi).bind fun _ => .pure _)

theorem still_compare {j : Nat} (hi : i < d.size) (hj : j < d.size) (coll : Option Collation) :
    Still d P (compare i j coll) := by
  refine (still_marks hP.creed hi).bind fun f => (still_marks hP.creed hj).bind fun g => ?_
  refine .ite (.pure _) (.ite (.ite ?_ (.ite (.pure _) ?_)) ?_)
  · exact (still_exactInt hP hi).bind fun _ => (still_exactInt hP hj).bind fun _ => .pure _
  · refine (still_rounded hP hi f).bind fun x => .ite (.pure _) ?_
    exact (still_rounded hP hj g).bind fun y => .pure _
  · exact (still_invalidate hP.creed hi).bind fun _ => (still_invalidate hP.creed hj).bind fun _ =>
      (still_cell i).bind fun _ => (still_cell j).bind fun _ => .pure _

end Exact

/-! Writing. -/

theorem clear_retype (hP : P.Sound) (hQ : Q.Sound) (hi : i < d.size) {kind : Flags}
    (hne : ∀ j, j ≠ i → ∀ f c, P j f c → Q j f c)
    (hmark : ∀ f c, P i f c → f.Honest c → Q i (f.noteFlags (c.flags.retype kind)) (c.withFlags (c.flags.retype kind))) :
    Clear d P (retype i kind) fun _ => Q := by
  refine clear_flags_bind hP hi fun g => clear_setFlags hi hQ (fun j hj f c h => hne j hj f c (of_seen h)) fun f c h => ?_
  obtain ⟨hhonest, rfl⟩ := seen_self h
  exact ⟨fun hg => (hhonest _ hg).symm, hmark f c (of_seen h) hhonest⟩

theorem clear_integerAffinity (hP : P.Sound) (hQ : Q.Sound) (hi : i < d.size) (hreal : ∀ f c, P i f c → f.RealExact c)
    (hPQ : ∀ j f c, P j f c → Q j f c)
    (hset : ∀ f c, f.Honest c → f.int? = none → c.flags.int = true → c.flags.real = false → Q i f c) :
    Clear d P (integerAffinity i) fun _ => Q := by
  refine clear_flags_bind hP hi fun g => Clear.check_bind fun _ => ?_
  refine (still_real hi fun f c h => hreal f c (of_seen h)).then_ fun x => (still_truncate x).then_ fun n => ?_
  have hback {j f c} (h : P.seen i g j f c) : Q j f c := hPQ j f c (of_seen h)
  refine Clear.ite (fun _ => ?_) fun _ => (Clear.pure _).weaken fun _ _ _ _ h => hback h
  have hupdate : Sound (Function.update Q i fun f c => f.Honest c ∧ f.int? = none) :=
    sound_update hQ (Fact.law_honest.creed.and Fact.creed_intless).toTenet i
  have hwrite : Clear d (P.seen i g) (setInt i n false) fun _ =>
      Function.update Q i fun f c => f.Honest c ∧ f.int? = none := by
    refine clear_setInt hi hupdate (fun j hj f c h => ?_) fun _ f c h => ?_
    · rw [Function.update_of_ne hj]
      exact hback h
    · rw [Function.update_self]
      exact ⟨Fact.honest_noteInt false _ (seen_self h).1, Fact.int?_dropInt f⟩
  refine hwrite.bind fun _ => (clear_retype hupdate hQ hi (fun j hj f c h => ?_) fun f c h _ => ?_).bind fun _ => .pure _
  · rwa [Function.update_of_ne hj] at h
  · rw [Function.update_self] at h
    exact hset _ _ (Fact.honest_noteFlags f c _) h.2 rfl rfl

section Slack

variable (hP : P.Loose i) (hi : i < d.size)

include hP hi

theorem still_setInt (n : Int) : Still d P (setInt i n false) :=
  clear_setInt hi (sound_of_creed hP.creed) (fun _ _ _ _ h => h) fun _ _ _ h => hP.slack.int _ h

theorem still_setReal (x : Number) : Still d P (setReal i x false) :=
  clear_setReal hi (sound_of_creed hP.creed) (fun _ _ _ _ h => h) fun _ _ h => hP.slack.real _ h

theorem still_retype (kind : Flags) : Still d P (retype i kind) :=
  clear_retype (sound_of_creed hP.creed) (sound_of_creed hP.creed) hi (fun _ _ _ _ h => h)
    fun _ _ h _ => hP.slack.marks _ h

theorem clear_setFlags_honestAt (g : Flags) : Clear d (P.honestAt i) (setFlags i g) fun _ => P :=
  clear_setFlags hi (sound_of_creed hP.creed) (fun _ _ _ _ h => of_honestAt h) fun _ _ h =>
    ⟨fun hg => (honestAt_self h _ hg).symm, hP.slack.marks _ (of_honestAt h)⟩

theorem still_setNull : Still d P (setNull i) :=
  (still_marks hP.creed hi).bind fun _ => (still_marks hP.creed hi).bind fun _ =>
    .ite (still_direct hP.creed hi _) (still_retype hP hi _)

theorem still_rekind (kind : Flags) : Still d P (do release i; setFlags i kind) :=
  (clear_release hP.creed hi).bind fun _ => clear_setFlags_honestAt hP hi kind

theorem still_setInteger_of {n : Int} {constant : Bool} (hset : Still d P (setInt i n constant)) :
    Still d P (setInteger i n constant) := by
  refine (still_marks hP.creed hi).bind fun f => .ite ?_ hset
  have hrest := (still_rekind hP hi .onlyInt).bind fun _ => hset
  rwa [bind_assoc] at hrest

theorem still_setInteger (n : Int) : Still d P (setInteger i n) := still_setInteger_of hP hi (still_setInt hP hi n)

theorem still_setDouble (x : Number) : Still d P (setDouble i x) := by
  refine .ite (still_setNull hP hi) ((still_marks hP.creed hi).bind fun f => .ite ?_ (still_setReal hP hi x))
  have hrest := (still_rekind hP hi .onlyReal).bind fun _ => still_setReal hP hi x
  rwa [bind_assoc] at hrest

end Slack

/-! Writing where the marks are relied on. -/

theorem slack_marks (d : Dims) : (spread d Fact.Honest).Loose i := loose_spread Fact.slack_honest d

theorem creed_marks (d : Dims) (j : Nat) : Fact.Creed (spread d Fact.Honest j) := creed_spread Fact.law_honest.creed d j

section Marks

variable (hr : r < d.reach)

include hr

theorem still_setFlags_of (hL : Fact.Creed L) {g : Flags} (hg : Fact.Markable L g) : Still d (spread d L) (setFlags r g) :=
  clear_setFlags (Dims.lt_size hr) (sound_spread hL d) (fun _ _ _ _ h => h) fun f c h => by
    rw [spread_of_lt hr] at h ⊢
    exact ⟨fun hknown => ((hg f c h).1 _ hknown).symm, (hg f c h).2⟩

theorem still_setFlags (g : Flags) : Still d (spread d Fact.Honest) (setFlags r g) :=
  still_setFlags_of hr Fact.law_honest.creed (Fact.markable_honest g)

theorem still_setAnyInt (n : Int) (constant : Bool) : Still d (spread d Fact.Honest) (setInt r n constant) :=
  clear_setInt (Dims.lt_size hr) (sound_of_creed (creed_marks d)) (fun _ _ _ _ h => h) fun _ _ _ h => by
    rw [spread_of_lt hr] at h ⊢
    exact Fact.honest_noteInt constant _ h

theorem still_setConstantReal {x : Double} (hx : x.isNaN = false) :
    Still d (spread d Fact.Honest) (setReal r (.real x) true) :=
  clear_setConstantReal (Dims.lt_size hr) hx (sound_of_creed (creed_marks d)) (fun _ _ _ _ h => h) fun _ _ h => by
    rw [spread_of_lt hr] at h ⊢
    exact h

theorem clear_setFlags_silent (hL : Fact.Creed L) (hsilent : ∀ f c, f.Silent c → L f c) (g : Flags) :
    Clear d (Function.update (spread d L) r Fact.Silent) (setFlags r g) fun _ => spread d L := by
  refine clear_setFlags (Dims.lt_size hr) (sound_spread hL d) (fun j hj f c h => ?_) fun f c h => ?_
  · rwa [Function.update_of_ne hj] at h
  · rw [Function.update_self] at h
    rw [spread_of_lt hr]
    exact ⟨fun hg => (h.marks _ hg).symm, hsilent _ _ ⟨Fact.honest_noteFlags f c g, h.int, h.real⟩⟩

theorem still_makeWriteable (hL : Fact.Creed L) (hsilent : ∀ f c, f.Silent c → L f c) :
    Still d (spread d L) (makeWriteable r) := by
  have hsize := Dims.lt_size hr
  have hcreed := creed_spread hL d
  have hsound : Sound (Function.update (spread d L) r Fact.Silent) :=
    sound_update (sound_of_creed hcreed) Fact.creed_silent.toTenet r
  refine (still_marks hcreed hsize).bind fun _ => (Still.check _).bind fun _ => (still_expandBlob hcreed hsize).bind fun _ => ?_
  refine (still_marks hcreed hsize).bind fun f => (still_cell r).bind fun c => Clear.ite (fun _ => ?_) fun _ => .pure _
  refine (clear_direct hsize hsound (fun j hj f c h => ?_) fun f c h => ?_).bind fun _ =>
    clear_setFlags_silent hr hL hsilent _
  · rwa [Function.update_of_ne hj]
  · rw [Function.update_self]
    exact Fact.creed_silent.nothing h

end Marks

/-! Conversions. -/

theorem marks_of_sure {d : Dims} (j : Nat) (f : Fact) (c : Cell) (h : spread d Fact.Sure j f c) :
    spread d Fact.Honest j f c :=
  spread_mono (fun _ _ h => h.marks) j f c h

section Conversions

variable (hr : r < d.reach)

include hr

theorem clear_integerify : Clear d (spread d Fact.Sure) (integerify r) fun _ => spread d Fact.Honest := by
  have hsize := Dims.lt_size hr
  have hkind := (still_retype (slack_marks d) hsize .onlyInt)
  refine (still_marks (exact_sure d).creed hsize).then_ fun f => .ite (fun _ => ?_) fun _ => hkind.from_ marks_of_sure
  refine (still_intValue (exact_sure d).reads hsize).then_ fun n => ?_
  exact ((still_setInt (slack_marks d) hsize n).bind fun _ => hkind).from_ marks_of_sure

theorem clear_realify : Clear d (spread d Fact.Sure) (realify r) fun _ => spread d Fact.Honest := by
  have hsize := Dims.lt_size hr
  refine (still_realValue (exact_sure d).reads hsize).then_ fun x => ?_
  exact ((still_setReal (slack_marks d) hsize x).bind fun _ => still_retype (slack_marks d) hsize .onlyReal).from_ marks_of_sure

theorem clear_numerify : Clear d (spread d Fact.Sure) (numerify r) fun _ => spread d Fact.Honest := by
  refine (still_marks (exact_sure d).creed (Dims.lt_size hr)).then_ fun f => .ite (fun hf => ?_) fun _ => ?_
  · -- What is neither a number nor nothing is refused in the end.
    have hrefused : (f.int || f.real || f.null) = false := by simpa using hf
    refine clear_of_refused (.bind fun _ => .bind fun c => .ite ?_ ?_) <;>
      exact .bind fun _ => .bind fun _ => refused_check hrefused
  · exact Clear.check_bind fun _ => (still_setFlags hr _).from_ marks_of_sure

theorem still_applyAffinity (code : Int) : Still d (spread d Fact.Pliable) (applyAffinity r code) := by
  have hsize := Dims.lt_size hr
  have hcreed := creed_spread Fact.creed_pliable d
  have hsound := sound_of_creed hcreed
  have hdirect (rule : Nat → Cell → Cell) : Still d (spread d Fact.Pliable) (direct r rule) := still_direct hcreed hsize rule
  refine clear_flags_bind hsound hsize fun f => .ite (fun _ => Clear.check_bind fun _ => ?_) fun _ => ?_
  · refine .ite (fun hf => .ite (fun _ => (hdirect _).from_ fun _ _ _ h => of_seen h) fun _ => ?_) fun _ =>
      (Clear.pure _).from_ fun _ _ _ h => of_seen h
    obtain ⟨hint, -⟩ : f.int = false ∧ f.real = false := by simpa using hf
    refine (clear_integerAffinity (hsound.seen r f) hsound hsize (fun g c h => ?_) (fun j g c h => of_seen h) ?_).bind
      fun _ => .pure _
    · have hc := of_seen h
      rw [spread_of_lt hr] at hc
      exact hc.other (by rw [(seen_self h).2, hint])
    · intro g c hhonest hg hint hreal
      rw [spread_of_lt hr]
      refine ⟨⟨hhonest, fun _ => Fact.intExact_of_none hg, fun h => ?_⟩, fun h => ?_⟩
      · exact absurd (hreal.symm.trans h) Bool.false_ne_true
      · exact absurd (h.symm.trans hint) Bool.false_ne_true
  · exact .ite (fun _ => .ite (fun _ => (hdirect _).from_ fun _ _ _ h => of_seen h) fun _ =>
      (Clear.pure _).from_ fun _ _ _ h => of_seen h) fun _ => (Clear.pure _).from_ fun _ _ _ h => of_seen h

theorem clear_cast (code : Int) : Clear d (spread d Fact.Sure) (Bank.cast r code) fun _ => spread d Fact.Honest := by
  have hsize := Dims.lt_size hr
  have hcreed := (exact_sure d).creed
  have hmarks (g : Flags) : Still d (spread d Fact.Sure) (setFlags r g) :=
    still_setFlags_of hr Fact.creed_sure (Fact.markable_sure g)
  have htext : Still d (spread d Fact.Sure) (applyAffinity r Affinity.text.code) :=
    (still_marks hcreed hsize).bind fun _ => .branch (fun h => absurd h (by decide)) fun _ =>
      .ite (.ite (still_direct hcreed hsize _) (.pure _)) (.pure _)
  refine (still_marks hcreed hsize).then_ fun f => .ite (fun _ => (Clear.pure _).weaken fun _ => marks_of_sure) fun _ => ?_
  split
  · exact .throw _
  · exact clear_numerify hr
  · exact clear_integerify hr
  · exact clear_realify hr
  · refine (hmarks _).then_ fun _ => htext.then_ fun _ => (still_marks hcreed hsize).then_ fun g => ?_
    refine Clear.check_bind fun _ => (still_marks hcreed hsize).then_ fun g => ?_
    exact (hmarks _).weaken fun _ => marks_of_sure
  · exact .throw _

end Conversions

theorem clear_swap {γ : Type} {e : BankM γ} {x : BankM α} {k : γ → α → BankM β} {S : β → Terms}
    (he : ∀ b s, b.Keeps s → ∃ c, e b = .ok c b) (hx : ∀ b s, b.Keeps s → ∃ a, x b = .ok a b)
    (h : Clear d P (do let a ← x; let c ← e; k c a) S) : Clear d P (do let c ← e; let a ← x; k c a) S := by
  have hrun (b : Bank) (hb : ∃ s, b.Keeps s) :
      (do let c ← e; let a ← x; k c a) b = (do let a ← x; let c ← e; k c a) b := by
    obtain ⟨s, hk⟩ := hb
    obtain ⟨c, hc⟩ := he b s hk
    obtain ⟨a, ha⟩ := hx b s hk
    rw [bind_of_ok hc, bind_of_ok ha, bind_of_ok ha, bind_of_ok hc]
  refine clear_of fun b b' hb a b₁ hok => ?_
  obtain ⟨s, hk, -⟩ := hb.knows
  rw [hrun b ⟨s, hk⟩] at hok
  obtain ⟨b₁', hok', h₁⟩ := h b b' ⟨rfl, hb⟩ a b₁ hok
  exact ⟨b₁', (hrun b' hb.blind).trans hok', h₁.shadows⟩

theorem Keeps.isConstantInt_run {b : Bank} {s : Sheet} (hk : b.Keeps s) (i : Nat) :
    isConstantInt i b = .ok (s.fact i).isConstantInt b := by
  simp only [isConstantInt, bind_of_ok get_run, hk.indexed, if_true, bind_of_ok hk.current_run, pure_run]

/-! Copies. -/

/-- While a register takes the payload of a cell with the marks `f`: what it has taken is not known. -/
def taken (d : Dims) (i : Nat) (f : Flags) : Terms :=
  Function.update (spread d Fact.Movable) i fun g c =>
    g.Honest c ∧ (f.int = true → g.int? = none) ∧ (f.real = true → g.real? = none)

/-- The double has been taken if there is one, and the integer of cell `j` is still to be taken. -/
def halfTaken (d : Dims) (i j : Nat) (f : Flags) : Terms :=
  Function.update ((spread d Fact.Movable).seen j f) i fun g c =>
    g.Honest c ∧ (j = i → f.int = true → g.IntExact c) ∧ (f.real = true → g.real? = none)

theorem sound_taken (d : Dims) (i : Nat) (f : Flags) : (taken d i f).Sound := by
  refine sound_update (sound_spread Fact.creed_movable d) (Fact.Creed.toTenet ?_) i
  exact Fact.law_honest.creed.and ((Fact.creed_intless.when fun _ => f.int = true).and
    (Fact.creed_realless.when fun _ => f.real = true))

theorem sound_halfTaken (d : Dims) (i j : Nat) (f : Flags) : (halfTaken d i j f).Sound := by
  refine sound_update ((sound_spread Fact.creed_movable d).seen j f) (Fact.Creed.toTenet ?_) i
  exact Fact.law_honest.creed.and (((Fact.creed_intExact.when fun _ => f.int = true).when fun _ => j = i).and
    (Fact.creed_realless.when fun _ => f.real = true))

section Copies

variable {j : Nat} (hi : i < d.reach) (hj : j < d.size)

theorem reads_movable (d : Dims) : (spread d Fact.Movable).Reads :=
  reads_spread Fact.creed_movable (fun _ _ h => h.legible) d

theorem taken_of_halfTaken {f : Flags} (hf : f.int = false) {k : Nat} {g : Fact} {c : Cell} (h : halfTaken d i j f k g c) :
    taken d i f k g c := by
  unfold taken halfTaken at *
  by_cases hk : k = i
  · subst hk
    rw [Function.update_self] at h ⊢
    exact ⟨h.1, fun hint => absurd (hf.symm.trans hint) Bool.false_ne_true, h.2.2⟩
  · rw [Function.update_of_ne hk] at h ⊢
    exact of_seen h

include hi

theorem movable_of_seen {f : Flags} {g : Fact} {c : Cell} (h : (spread d Fact.Movable).seen j f i g c) : g.Movable c := by
  have hc := of_seen h
  rwa [spread_of_lt hi] at hc

theorem halfTaken_of_seen {f : Flags} (hf : f.real = false) {k : Nat} {g : Fact} {c : Cell}
    (h : (spread d Fact.Movable).seen j f k g c) : halfTaken d i j f k g c := by
  unfold halfTaken
  by_cases hk : k = i
  · subst hk
    rw [Function.update_self]
    have hc := movable_of_seen hi h
    refine ⟨hc.marks, fun hji hint => ?_, fun hreal => absurd (hf.symm.trans hreal) Bool.false_ne_true⟩
    subst hji
    exact hc.int (by rw [(seen_self h).2, hint])
  · rwa [Function.update_of_ne hk]

include hj

theorem clear_takeReal {f : Flags} (hf : f.real = true) :
    Clear d ((spread d Fact.Movable).seen j f) (do setReal i (← real j) false) fun _ => halfTaken d i j f := by
  refine (still_markedReal (reads_movable d) hj hf).then_ fun x => ?_
  refine clear_setReal (Dims.lt_size hi) (sound_halfTaken d i j f) (fun k hk g c h => ?_) fun g c h => ?_
  · rwa [halfTaken, Function.update_of_ne hk]
  · have hc := movable_of_seen hi h
    rw [halfTaken, Function.update_self]
    refine ⟨hc.marks, fun hji hint => ?_, fun _ => Fact.real?_dropReal g⟩
    subst hji
    have hflags := (seen_self h).2
    exact Fact.intExact_of_none (Fact.int?_dropReal (hc.single (by rw [hflags, hint]) (by rw [hflags, hf])))

theorem clear_takeInt {f : Flags} (hf : f.int = true) :
    Clear d (halfTaken d i j f) (do setInt i (← int j) false) fun _ => taken d i f := by
  have hread : Still d (halfTaken d i j f) (int j) := by
    refine still_int hj fun g c h => ?_
    unfold halfTaken at h
    by_cases hji : j = i
    · subst hji
      rw [Function.update_self] at h
      exact h.2.1 rfl hf
    · rw [Function.update_of_ne hji] at h
      exact ((reads_movable d).legible j g c (of_seen h)).int (by rw [(seen_self h).2, hf])
  refine hread.then_ fun n => clear_setInt (Dims.lt_size hi) (sound_taken d i f) (fun k hk g c h => ?_) fun _ g c h => ?_
  · rw [halfTaken, Function.update_of_ne hk] at h
    rw [taken, Function.update_of_ne hk]
    exact of_seen h
  · rw [halfTaken, Function.update_self] at h
    rw [taken, Function.update_self]
    exact ⟨Fact.honest_noteInt false _ h.1, fun _ => Fact.int?_dropInt g, fun hreal => Fact.real?_dropInt (h.2.2 hreal)⟩

theorem clear_takePayload (f : Flags) :
    Clear d ((spread d Fact.Movable).seen j f) (takePayload i j f) fun _ => taken d i f := by
  have hsize := Dims.lt_size hi
  have hzeros : Clear d (taken d i f) (do
      if f.zero then
        let zeros := (← cell j).zeros
        modifyCell i fun c => { c with payload := Content.withZeros c.payload zeros } : BankM Unit) fun _ => taken d i f := by
    refine .ite (fun _ => (still_cell j).then_ fun c => ?_) fun _ => .pure _
    refine clear_modifyCell hsize (fun _ _ _ _ h => h) fun g c h => ?_
    rw [taken, Function.update_self] at h ⊢
    exact h
  have hrest : Clear d (halfTaken d i j f) (do
      if f.int then setInt i (← int j) false
      if f.zero then
        let zeros := (← cell j).zeros
        modifyCell i fun c => { c with payload := Content.withZeros c.payload zeros } : BankM Unit) fun _ => taken d i f := by
    refine .ite (fun hf => ?_) fun hf => hzeros.from_ fun _ _ _ h => taken_of_halfTaken (Bool.eq_false_iff.mpr hf) h
    have hint := (clear_takeInt hi hj hf).bind fun _ => hzeros
    rwa [bind_assoc] at hint
  refine .ite (fun hf => ?_) fun hf => hrest.from_ fun _ _ _ h => halfTaken_of_seen hi (Bool.eq_false_iff.mpr hf) h
  have hreal := (clear_takeReal hi hj hf).bind fun _ => hrest
  rwa [bind_assoc] at hreal

omit hj in
theorem clear_setFlags_taken {f g : Flags} (hint : g.int = f.int) (hreal : g.real = f.real) :
    Clear d (taken d i f) (setFlags i g) fun _ => spread d Fact.Movable := by
  refine clear_setFlags (Dims.lt_size hi) (sound_spread Fact.creed_movable d) (fun k hk e c h => ?_) fun e c h => ?_
  · rwa [taken, Function.update_of_ne hk] at h
  · rw [taken, Function.update_self] at h
    obtain ⟨hmarks, hi', hr'⟩ := h
    rw [spread_of_lt hi]
    refine ⟨fun hg => (hmarks _ hg).symm, ⟨Fact.honest_noteFlags e c g, fun hg => ?_, fun hg => ?_⟩, fun hg _ => ?_⟩
    · exact Fact.intExact_of_none (hi' (hint.symm.trans hg))
    · exact Fact.realExact_of_none (hr' (hreal.symm.trans hg))
    · exact hi' (hint.symm.trans hg)

omit hj in
theorem clear_takeBuffer (f : Flags) (loan : Option Cell.Loan) :
    Clear d (taken d i f) (do
      let src ← cell j
      modifyCell i fun c =>
        { c with
          encoding := src.encoding
          size := src.size
          data := src.data
          attachment := src.attachment }
      match f.static, loan with
      | true, _ => setFlags i f
      | false, some loan => setFlags i (loan.mark f)
      | false, none => throw (.assertion "") : BankM Unit) fun _ => spread d Fact.Movable := by
  refine (still_cell j).then_ fun src => Clear.bind (Q := fun _ => taken d i f) ?_ fun _ => ?_
  · exact clear_modifyCell (Dims.lt_size hi) (fun _ _ _ _ h => h) fun g c h => (sound_taken d i f i).parts h rfl rfl
  split
  · exact clear_setFlags_taken hi rfl rfl
  · rename_i loan hstatic
    refine clear_setFlags_taken hi ?_ ?_ <;> simp [Cell.Loan.mark, hstatic]
  · exact .throw _

omit hj in
theorem clear_takeString (f : Flags) (loan : Option Cell.Loan) :
    Clear d (taken d i f) (takeString i j f loan) fun _ => spread d Fact.Movable := by
  have hend := clear_takeBuffer (d := d) (j := j) hi f loan
  refine .ite (fun _ => Clear.check_bind fun _ => ?_) fun _ => ?_
  all_goals exact .ite (fun _ => Clear.check_bind fun _ => hend) fun _ => hend

theorem still_shallowCopy (loan : Option Cell.Loan) : Still d (spread d Fact.Movable) (shallowCopy i j loan) := by
  have hcreed := creed_spread Fact.creed_movable d
  refine (still_marks hcreed hj).then_ fun g => Clear.check_bind fun _ => ?_
  refine (still_releaseExtern hcreed (Dims.lt_size hi)).then_ fun _ => ?_
  exact clear_flags_bind (sound_of_creed hcreed) hj fun f => (clear_takePayload hi hj f).bind fun _ => clear_takeString hi f loan

end Copies

section Moves

variable {j : Nat} (hi : i < d.reach) (hj : j < d.reach)

include hi hj

theorem still_copyRegister : Still d (spread d Fact.Movable) (Tracked.copyRegister j i) := by
  have hcreed := creed_spread Fact.creed_movable d
  refine (still_shallowCopy hi (Dims.lt_size hj) _).bind fun _ => (still_marks hcreed (Dims.lt_size hi)).bind fun f => ?_
  refine .ite (still_makeWriteable hi Fact.creed_movable fun g c h => ?_) (.pure _)
  exact ⟨h.sure.guarded, fun _ _ => h.int⟩

theorem still_copyWhole : Still d (spread d Fact.Honest) (copyWhole i j) := by
  have hsize := Dims.lt_size hi
  have hcreed := creed_marks d
  have hsound := sound_of_creed hcreed
  refine (clear_invalidate_nothing hsize hsound fun _ _ _ _ h => h).bind fun _ => (still_cell j).then_ fun c => ?_
  refine Clear.bind (Q := fun _ => spread d Fact.Honest) ?_ fun _ => ?_
  · refine clear_setCell hsize (fun k hk f c h => ?_) fun f e h => ?_
    · rwa [nothingAt, Function.update_of_ne hk] at h
    · rw [nothingAt, Function.update_self] at h
      exact (hcreed i).nothing h
  refine (still_marks hcreed (Dims.lt_size hj)).then_ fun f => (still_cell i).then_ fun c => Clear.check_bind fun _ => ?_
  refine clear_noteFlags hsize hsound (fun _ _ _ _ h => h) (fun _ _ h _ => h) fun g c h hc => ?_
  rw [spread_of_lt hi]
  rw [← hc]
  exact Fact.honest_noteFlags g c c.flags

theorem still_moveFrom : Still d (spread d Fact.Honest) (Bank.moveFrom i j) :=
  (still_release (creed_marks d) (Dims.lt_size hi)).bind fun _ => (still_copyWhole hi hj).bind fun _ =>
    (still_setFlags hj _).bind fun _ => still_modifyCell (creed_marks d) (Dims.lt_size hj) (fun _ => rfl) fun _ => rfl

end Moves

/-! Arithmetic. -/

/-- The cells in `T` were found to stand for integers: those that are not marked so have just been given one. -/
def pledged (d : Dims) (T : Nat → Prop) : Terms := fun j =>
  spread d (fun f c => f.Guarded c ∧ (T j → c.flags.int = false → f.int? = none)) j

section Arithmetic

variable {T : Nat → Prop} {f : Fact} {c : Cell}

theorem creed_pledged (d : Dims) (T : Nat → Prop) (j : Nat) : Fact.Creed (pledged d T j) :=
  creed_spread (Fact.creed_guarded.and ((Fact.creed_intless.when fun g => g.int = false).when fun _ => T j)) d j

theorem reads_pledged (d : Dims) (T : Nat → Prop) : (pledged d T).Reads := by
  refine ⟨creed_pledged d T, fun j f c h => ?_⟩
  unfold pledged at h
  by_cases hj : j < d.reach
  · rw [spread_of_lt hj] at h
    exact h.1.legible
  · rw [spread, if_neg hj] at h
    exact h.legible

theorem pledged_of_sure (j : Nat) (f : Fact) (c : Cell) (h : spread d Fact.Sure j f c) : pledged d (fun _ => False) j f c :=
  spread_mono (fun _ _ h => ⟨h.guarded, fun hT => hT.elim⟩) j f c h

theorem marks_of_pledged (j : Nat) (f : Fact) (c : Cell) (h : pledged d T j f c) : spread d Fact.Honest j f c :=
  spread_mono (fun _ _ h => h.1.marks) j f c h

theorem pledged_add {j : Nat} {t : Flags} (h : pledged d T j f c)
    (hnew : j = r → t.int = true → c.flags.int = false → f.int? = none) :
    pledged d (fun j => T j ∨ j = r ∧ t.int = true) j f c := by
  unfold pledged at h ⊢
  by_cases hj : j < d.reach
  · rw [spread_of_lt hj] at h ⊢
    refine ⟨h.1, ?_⟩
    rintro (hT | ⟨hjr, ht⟩) hflags
    · exact h.2 hT hflags
    · exact hnew hjr ht hflags
  · rw [spread, if_neg hj] at h ⊢
    exact h

variable (hr : r < d.reach)

include hr

theorem still_pledgedInt (hT : T r) : Still d (pledged d T) (int r) := by
  refine still_int (Dims.lt_size hr) fun f c h => ?_
  unfold pledged at h
  rw [spread_of_lt hr] at h
  cases hflags : c.flags.int with
  | true => exact h.1.int hflags
  | false => exact Fact.intExact_of_none (h.2 hT hflags)

omit hr in
theorem sound_reading (d : Dims) (T : Nat → Prop) (g : Flags) (p : Prop) :
    Sound (Function.update (pledged d T) r fun f c => (f.Honest c ∧ (p → f.int? = none)) ∧ c.flags = g) :=
  sound_update (sound_of_creed (creed_pledged d T))
    ((Fact.law_honest.creed.and (Fact.creed_intless.when fun _ => p)).toTenet.and (tenet_marked g)) r

theorem pledged_of_reading {g t : Flags} (hint : g.int = false) (hreal : g.real = false) {p : Prop} (hT : T r → p)
    (ht : t.int = true → p) {j : Nat}
    (h : Function.update (pledged d T) r (fun f c => (f.Honest c ∧ (p → f.int? = none)) ∧ c.flags = g) j f c) :
    pledged d (fun j => T j ∨ j = r ∧ t.int = true) j f c := by
  by_cases hj : j = r
  · subst hj
    rw [Function.update_self] at h
    obtain ⟨⟨hmarks, hp⟩, rfl⟩ := h
    have hguarded : f.Guarded c :=
      ⟨hmarks, fun h => absurd (hint.symm.trans h) Bool.false_ne_true, fun h => absurd (hreal.symm.trans h) Bool.false_ne_true⟩
    refine pledged_add ?_ fun _ hi _ => hp (ht hi)
    rw [pledged, spread_of_lt hr]
    exact ⟨hguarded, fun hj _ => hp (hT hj)⟩
  · rw [Function.update_of_ne hj] at h
    exact pledged_add h fun hjr => absurd hjr hj

theorem clear_numericType :
    Clear d (pledged d T) (numericType r) fun t => pledged d fun j => T j ∨ j = r ∧ t.int = true := by
  have hsize := Dims.lt_size hr
  have hsound := sound_of_creed (creed_pledged d T)
  refine clear_flags_bind hsound hsize fun g => .ite (fun _ => ?_) fun hnumeric => .ite (fun _ => ?_) fun _ => ?_
  · refine .answer fun j f c h => pledged_add (of_seen h) fun hj ht hflags => ?_
    subst hj
    rw [(seen_self h).2] at hflags
    exact absurd (hflags.symm.trans ht) Bool.false_ne_true
  · obtain ⟨hint, hreal⟩ : g.int = false ∧ g.real = false := by simpa [Flags.numeric] using hnumeric
    refine (still_cell r).then_ fun c => Clear.bind (Q := fun _ =>
      Function.update (pledged d T) r fun f c => (f.Honest c ∧ (T r → f.int? = none)) ∧ c.flags = g) ?_ fun _ => ?_
    · refine clear_setReal hsize (sound_reading d T g (T r)) (fun j hj f c h => ?_) fun f c h => ?_
      · rw [Function.update_of_ne hj]
        exact of_seen h
      · rw [Function.update_self]
        obtain ⟨hmarks, hflags⟩ := seen_self h
        have hpledged := of_seen h
        rw [pledged, spread_of_lt hr] at hpledged
        exact ⟨⟨hmarks, fun hT => Fact.int?_dropReal (hpledged.2 hT (hflags ▸ hint))⟩, hflags⟩
    refine .ite (fun _ => .answer fun j f c h => pledged_of_reading hr hint hreal id (fun ht => ?_) h) fun _ => ?_
    · cases ht
    refine Clear.bind (Q := fun _ =>
      Function.update (pledged d T) r fun f c => (f.Honest c ∧ (True → f.int? = none)) ∧ c.flags = g) ?_ fun _ => ?_
    · refine clear_setInt hsize (sound_reading d T g True) (fun j hj f c h => ?_) fun _ f c h => ?_
      · rwa [Function.update_of_ne hj] at h ⊢
      · rw [Function.update_self] at h ⊢
        exact ⟨⟨Fact.honest_noteInt false _ h.1.1, fun _ => Fact.int?_dropInt f⟩, h.2⟩
    exact .answer fun j f c h => pledged_of_reading hr hint hreal (fun _ => trivial) (fun _ => trivial) h
  · exact .answer fun j f c h => pledged_add (of_seen h) fun _ ht => by cases ht

end Arithmetic

end Bank

end QueryMachine
