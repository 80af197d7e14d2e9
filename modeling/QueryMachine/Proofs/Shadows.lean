import Mathlib
import QueryMachine.Proofs.Certain
import QueryMachine.Proofs.Machines
import QueryMachine.Proofs.Oblivious

/-!
Two banks with the same cells, of which only the first one uses knowledge. A rule is clear if it does the
same on both, whenever it gets through on the first one. What has to be true of the knowledge for that is
said for each cell, and changes from step to step.
-/

namespace QueryMachine

theorem Double.isFinite_of_not {x : Double} (hnan : x.isNaN = false) (hinf : x.isInf = false) : x.isFinite = true := by
  rw [isNaN, decide_eq_false_iff_not] at hnan
  rw [isInf, beq_eq_false_iff_ne] at hinf
  rw [isFinite, decide_eq_true_eq]
  omega

namespace Fact

/-- What can be said about a fact and its cell: it depends on what the fact says and on the marks and the
payload of the cell, and goes on to hold when the marks are looked up. -/
structure Tenet (P : Fact → Cell → Prop) : Prop where
  like : ∀ {f g c}, P g c → f.Like g → f.Plain → g.Plain → P f c
  parts : ∀ {f c d}, P f c → d.flags = c.flags → d.payload = c.payload → P f d
  look : ∀ {f c}, P f c → P (f.noteFlags c.flags) c

/-- A tenet that holds wherever nothing is known. -/
structure Creed (P : Fact → Cell → Prop) : Prop extends Tenet P where
  nothing : ∀ {f c}, f.known = .nothing → P f c

variable {P Q : Fact → Cell → Prop} {f : Fact} {c : Cell}

theorem Law.creed (h : Law P) : Creed P := ⟨⟨h.like, h.parts, h.look⟩, h.nothing⟩

theorem Tenet.and (hP : Tenet P) (hQ : Tenet Q) : Tenet fun f c => P f c ∧ Q f c where
  like h hl hf hg := ⟨hP.like h.1 hl hf hg, hQ.like h.2 hl hf hg⟩
  parts h hflags hpayload := ⟨hP.parts h.1 hflags hpayload, hQ.parts h.2 hflags hpayload⟩
  look h := ⟨hP.look h.1, hQ.look h.2⟩

theorem Creed.and (hP : Creed P) (hQ : Creed Q) : Creed fun f c => P f c ∧ Q f c :=
  ⟨hP.toTenet.and hQ.toTenet, fun h => ⟨hP.nothing h, hQ.nothing h⟩⟩

theorem Creed.when (hP : Creed P) (p : Flags → Prop) : Creed fun f c => p c.flags → P f c where
  like h hl hf hg hp := hP.like (h hp) hl hf hg
  parts h hflags hpayload hp := hP.parts (h (hflags ▸ hp)) hflags hpayload
  look h hp := hP.look (h hp)
  nothing h _ := hP.nothing h

/-- The integer that is known is the one that the cell holds. -/
def IntExact (f : Fact) (c : Cell) : Prop := ∀ n, f.int? = some n → n = c.int

/-- The double that is known is not a zero, and it is the one that the cell holds. -/
def RealExact (f : Fact) (c : Cell) : Prop := ∀ x, f.real? = some x → x.level ≠ 0 ∧ x = .real c.real

theorem int?_of_unknown (h : f.known.int = false) : f.int? = none := by
  simp [int?, isConstantInt, h]

theorem real?_of_unknown (h : f.known.real = false) : f.real? = none := by
  simp [real?, isConstantReal, h]

theorem intExact_of_none (h : f.int? = none) : f.IntExact c := by
  intro n hn
  rw [h] at hn
  cases hn

theorem realExact_of_none (h : f.real? = none) : f.RealExact c := by
  intro x hx
  rw [h] at hx
  cases hx

theorem creed_intExact : Creed IntExact where
  like h hl _ _ n hn := h n (by rw [← hl.int?_eq, hn])
  parts {f c d} h _ hpayload n hn := by
    rw [h n hn]
    show wordToInt c.payload = wordToInt d.payload
    rw [hpayload]
  look h := h
  nothing h := intExact_of_none (int?_of_unknown (by rw [h]; rfl))

theorem RealExact.of_like {g : Fact} (h : g.RealExact c) (hl : f.Like g) (hf : f.Plain) : f.RealExact c := by
  intro x hx
  obtain ⟨y, hy⟩ : ∃ y, g.real? = some y := by
    rw [← Option.isSome_iff_exists, ← hl.isSome_real?, hx]
    rfl
  obtain ⟨hne, rfl⟩ := h y hy
  have hlevel : x.level = (Number.real c.real).level := by
    have := hl.real?_level
    rw [hx, hy] at this
    simpa using this
  refine ⟨hlevel ▸ hne, ?_⟩
  have hplain := hf.real? hx
  cases x with
  | int n =>
    have hn : n = 0 := hplain
    rw [hn] at hlevel
    exact absurd hlevel.symm hne
  | real x => exact congrArg Number.real (Double.eq_of_key_eq hlevel fun h => hne (hlevel.symm.trans h))

theorem creed_realExact : Creed RealExact where
  like h hl hf _ := h.of_like hl hf
  parts {f c d} h _ hpayload x hx := by
    obtain ⟨hne, rfl⟩ := h x hx
    have hreal : d.real = c.real := by
      show Double.mk d.payload = Double.mk c.payload
      rw [hpayload]
    exact ⟨hne, by rw [hreal]⟩
  look h := h
  nothing h := realExact_of_none (real?_of_unknown (by rw [h]; rfl))

def Outer (f : Fact) (_ : Cell) : Prop := f.known.int = false ∧ f.known.real = false

theorem creed_outer : Creed Outer where
  like h hl _ _ := by rwa [Outer, hl.known]
  parts h _ _ := h
  look h := h
  nothing h := by rw [Outer, h]; exact ⟨rfl, rfl⟩

theorem Outer.intExact (h : f.Outer c) : f.IntExact c := intExact_of_none (int?_of_unknown h.1)

theorem Outer.realExact (h : f.Outer c) : f.RealExact c := realExact_of_none (real?_of_unknown h.2)

/-- Everything that is known is exact. -/
structure Sure (f : Fact) (c : Cell) : Prop where
  marks : f.Honest c
  int : f.IntExact c
  real : f.RealExact c

/-- The marks that are known are true, and an integer or a double of a cell that is marked so is exact. -/
structure Guarded (f : Fact) (c : Cell) : Prop where
  marks : f.Honest c
  int : c.flags.int = true → f.IntExact c
  real : c.flags.real = true → f.RealExact c

theorem Sure.guarded (h : f.Sure c) : f.Guarded c := ⟨h.marks, fun _ => h.int, fun _ => h.real⟩

theorem creed_sure : Creed Sure := by
  have h := law_honest.creed.and (creed_intExact.and creed_realExact)
  have hiff (f c) : Sure f c ↔ f.Honest c ∧ f.IntExact c ∧ f.RealExact c :=
    ⟨fun h => ⟨h.marks, h.int, h.real⟩, fun h => ⟨h.1, h.2.1, h.2.2⟩⟩
  simpa only [← hiff] using h

theorem creed_guarded : Creed Guarded := by
  have h := law_honest.creed.and
    ((creed_intExact.when fun g => g.int = true).and (creed_realExact.when fun g => g.real = true))
  have hiff (f c) : Guarded f c ↔
      f.Honest c ∧ (c.flags.int = true → f.IntExact c) ∧ (c.flags.real = true → f.RealExact c) :=
    ⟨fun h => ⟨h.marks, h.int, h.real⟩, fun h => ⟨h.1, h.2.1, h.2.2⟩⟩
  simpa only [← hiff] using h

end Fact

/-- How many registers a bank has, and how many cells. -/
structure Bank.Dims where
  reach : Nat
  size : Nat
  fits : reach ≤ size

abbrev Terms := Nat → Fact → Cell → Prop

namespace Terms

variable {L M : Fact → Cell → Prop} {P Q : Terms} {i j : Nat} {f : Fact} {c : Cell}

def Sound (P : Terms) : Prop := ∀ j, Fact.Tenet (P j)

/-- One creed for the registers of a bank; of variables only the marks are known. -/
def spread (d : Bank.Dims) (L : Fact → Cell → Prop) : Terms := fun i => if i < d.reach then L else Fact.Outer

theorem spread_of_lt {d : Bank.Dims} (h : i < d.reach) : spread d L i = L := if_pos h

theorem spread_mono {d : Bank.Dims} (h : ∀ f c, L f c → M f c) (i : Nat) (f : Fact) (c : Cell) (hi : spread d L i f c) :
    spread d M i f c := by
  by_cases hlt : i < d.reach
  · rw [spread_of_lt hlt] at hi ⊢
    exact h f c hi
  · rw [spread, if_neg hlt] at hi ⊢
    exact hi

theorem creed_spread (hL : Fact.Creed L) (d : Bank.Dims) (i : Nat) : Fact.Creed (spread d L i) := by
  unfold spread
  split
  · exact hL
  · exact Fact.creed_outer

theorem sound_spread (hL : Fact.Creed L) (d : Bank.Dims) : (spread d L).Sound :=
  fun j => (creed_spread hL d j).toTenet

/-- The terms after the marks of a cell have been looked up. -/
def seen (P : Terms) (i : Nat) (g : Flags) : Terms :=
  Function.update P i fun f c => P i f c ∧ f.Honest c ∧ c.flags = g

theorem of_seen {g : Flags} (h : P.seen i g j f c) : P j f c := by
  have hall : ∀ j f c, P.seen i g j f c → P j f c :=
    (Function.forall_update_iff P fun j L => ∀ f c, L f c → P j f c).mpr ⟨fun _ _ h => h.1, fun _ _ _ _ h => h⟩
  exact hall j f c h

theorem seen_self {g : Flags} (h : P.seen i g i f c) : f.Honest c ∧ c.flags = g := by
  rw [seen, Function.update_self] at h
  exact h.2

theorem sound_update (hP : P.Sound) (hL : Fact.Tenet L) (i : Nat) : Sound (Function.update P i L) :=
  (Function.forall_update_iff P fun _ L => Fact.Tenet L).mpr ⟨hL, fun j _ => hP j⟩

theorem tenet_marked (g : Flags) : Fact.Tenet fun _ c => c.flags = g :=
  ⟨fun h _ _ _ => h, fun h hflags _ => hflags.trans h, fun h => h⟩

theorem Sound.seen (hP : P.Sound) (i : Nat) (g : Flags) : (P.seen i g).Sound :=
  sound_update hP ((hP i).and (Fact.law_honest.creed.toTenet.and (tenet_marked g))) i

end Terms

/-- The knowledge is on the same side. -/
structure Holder.Sides (h h' : Holder) : Prop where
  inside : h'.inside.isSome = h.inside.isSome
  outside : h'.outside.isSome = h.outside.isSome

theorem Holder.Sides.holding {h h' : Holder} (hs : h.Sides h') (s t : Sheet) : (h.holding s).Sides (h'.holding t) := by
  obtain ⟨hin, hout⟩ := hs
  unfold Holder.holding
  rw [hin]
  split
  · exact ⟨rfl, hout⟩
  · exact ⟨hin, rfl⟩

namespace Bank

variable {α β : Type} {d : Dims} {P Q R : Terms} {b b' b₁ b₁' : Bank} {s s' : Sheet} {i : Nat}

theorem Keeps.eq {t : Sheet} (h : b.Keeps s) (h' : b.Keeps t) : s = t :=
  Option.some.inj (h.current.symm.trans h'.current)

/-- The banks have the same cells, the first one uses knowledge, on which `P` can be relied, and the second one does
not use any. -/
structure Shadows (d : Dims) (P : Terms) (b b' : Bank) : Prop where
  reach : b.reach = d.reach
  size : b.cells.size = d.size
  knows : ∃ s, b.Keeps s ∧ ∀ j < d.size, P j (s.fact j) (b.cellAt j)
  on : b.holder.useCache = true
  blind : ∃ s, b'.Keeps s
  off : b'.holder.useCache = false
  sides : b.holder.Sides b'.holder
  same : b' = b.veil b'.holder b'.ledger

theorem Shadows.cellAt (h : b.Shadows d P b') (j : Nat) : b'.cellAt j = b.cellAt j := by rw [h.same]; rfl

theorem Shadows.mono (h : b.Shadows d P b') (hPQ : ∀ j f c, P j f c → Q j f c) : b.Shadows d Q b' := by
  obtain ⟨s, hk, hs⟩ := h.knows
  exact { h with knows := ⟨s, hk, fun j hj => hPQ j _ _ (hs j hj)⟩ }

theorem Shadows.noted (h : b.Shadows d P b') (hk : b.Keeps s) {c : Cell} {g g' : Fact → Fact}
    (hi : i < d.size) (hn : (b.withCell i c).Notes (s.facts.modify i g) b₁)
    (hn' : (b'.withCell i c).Notes (s'.facts.modify i g') b₁')
    (hlike : ∀ j {f g c}, Q j g c → f.Like g → f.Plain → g.Plain → Q j f c)
    (hne : ∀ j, j ≠ i → ∀ f c, P j f c → Q j f c)
    (hQ : ∀ f, f.Plain → P i f (b.cellAt i) → (g f).Plain ∧ Q i (g f) c) : b₁.Shadows d Q b₁' := by
  obtain ⟨t, hkt, hP⟩ := h.knows
  obtain rfl := hkt.eq hk
  have hlt : i < b.cells.size := h.size ▸ hi
  obtain ⟨t₁, l, rfl, hk₁, hs⟩ := hn
  obtain ⟨t₁', l', rfl, hk₁', _⟩ := hn'
  have hfact := (hk.withCell i c).fact_noted (by rwa [size_withCell]) hs
  refine ⟨h.reach, ?_, ⟨t₁, hk₁, fun j hj => ?_⟩, ?_, ⟨t₁', hk₁'⟩, ?_, h.sides.holding _ _, ?_⟩
  · show (b.withCell i c).cells.size = _
    rw [size_withCell, h.size]
  · have hlikej := hfact j
    rw [cellAt_knowing, cellAt_withCell hlt]
    by_cases hji : i = j
    · subst hji
      rw [if_pos ⟨rfl, h.on⟩] at hlikej
      rw [if_pos rfl]
      obtain ⟨hplain, hgood⟩ := hQ _ (hk.plain.fact i) (hP i hj)
      exact hlike i hgood hlikej (hk₁.plain.fact i) hplain
    · rw [if_neg fun hc => hji hc.1] at hlikej
      rw [if_neg hji]
      exact hlike j (hne j (Ne.symm hji) _ _ (hP j hj)) hlikej (hk₁.plain.fact j) (hk.plain.fact j)
  · simpa [knowing] using h.on
  · simpa [knowing] using h.off
  · rw [h.same]
    rfl

theorem Shadows.noted_only (h : b.Shadows d P b') (hk : b.Keeps s) {g g' : Fact → Fact}
    (hi : i < d.size) (hn : b.Notes (s.facts.modify i g) b₁) (hn' : b'.Notes (s'.facts.modify i g') b₁')
    (hlike : ∀ j {f g c}, Q j g c → f.Like g → f.Plain → g.Plain → Q j f c)
    (hne : ∀ j, j ≠ i → ∀ f c, P j f c → Q j f c)
    (hQ : ∀ f, f.Plain → P i f (b.cellAt i) → (g f).Plain ∧ Q i (g f) (b.cellAt i)) : b₁.Shadows d Q b₁' := by
  rw [← withCell_cellAt b i] at hn
  rw [← withCell_cellAt b' i, h.cellAt] at hn'
  exact h.noted hk hi hn hn' hlike hne hQ

theorem Shadows.put (h : b.Shadows d P b') (c : Cell)
    (hparts : ∀ j {f c e}, Q j f c → e.flags = c.flags → e.payload = c.payload → Q j f e)
    (hne : ∀ j, j ≠ i → ∀ f c, P j f c → Q j f c) (hQ : ∀ f, P i f (b.cellAt i) → Q i f c) :
    (b.put i c).Shadows d Q (b'.put i c) := by
  obtain ⟨s, hk, hP⟩ := h.knows
  obtain ⟨s', hk'⟩ := h.blind
  refine ⟨?_, ?_, ⟨s, hk.put i c, fun j hj => ?_⟩, ?_, ⟨s', hk'.put i c⟩, ?_, ?_, ?_⟩
  · rw [reach_put, h.reach]
  · rw [size_put, h.size]
  · by_cases hji : i = j
    · subst hji
      rw [cellAt_put (h.size ▸ hj), if_pos rfl]
      exact hQ _ (hP i hj)
    · have hmarks := marks_cellAt_put (b := b) hji c
      exact hparts j (hne j (Ne.symm hji) _ _ (hP j hj)) hmarks.1 hmarks.2
  · rw [holder_put, h.on]
  · rw [holder_put, h.off]
  · rw [holder_put, holder_put]
    exact h.sides
  · rw [holder_put, ledger_put]
    have := put_veil b b'.holder b'.ledger i c
    rwa [← h.same] at this

theorem Shadows.withCell (h : b.Shadows d P b') (hi : i < d.size) (c : Cell)
    (hne : ∀ j, j ≠ i → ∀ f c, P j f c → Q j f c) (hQ : ∀ f, P i f (b.cellAt i) → Q i f c) :
    (b.withCell i c).Shadows d Q (b'.withCell i c) := by
  obtain ⟨s, hk, hP⟩ := h.knows
  obtain ⟨s', hk'⟩ := h.blind
  refine ⟨h.reach, ?_, ⟨s, hk.withCell i c, fun j hj => ?_⟩, h.on, ⟨s', hk'.withCell i c⟩, h.off, h.sides, ?_⟩
  · rw [size_withCell, h.size]
  · rw [cellAt_withCell (h.size ▸ hi)]
    by_cases hji : i = j
    · subst hji
      rw [if_pos rfl]
      exact hQ _ (hP i hj)
    · rw [if_neg hji]
      exact hne j (Ne.symm hji) _ _ (hP j hj)
  · rw [h.same]
    rfl

theorem Shadows.renewed (h : b.Shadows d P b') : b.renewed.Shadows d P b'.renewed := by
  obtain ⟨s, hk, hP⟩ := h.knows
  obtain ⟨s', hk'⟩ := h.blind
  refine ⟨h.reach, h.size, ⟨s, hk.renewed, hP⟩, h.on, ⟨s', hk'.renewed⟩, h.off, h.sides, ?_⟩
  rw [h.same]
  rfl

end Bank

class Banked (σ : Type) where
  bank : σ → Bank
  withBank : σ → Bank → σ

instance : Banked Bank := ⟨id, fun _ b => b⟩

instance : Banked Machine := ⟨Machine.bank, Machine.withBank⟩

open Banked Bank

/-- Two states that differ in their banks only, and there only in the knowledge. -/
structure Beside {σ : Type} [Banked σ] (d : Dims) (P : Terms) (s s' : σ) : Prop where
  same : s' = withBank s (bank s')
  shadows : (bank s).Shadows d P (bank s')

/-- A rule that does the same with and without knowledge, if it gets through with knowledge on which `P` can be
relied; then `Q` can be relied on, which may depend on the answer. -/
def Clear {σ α : Type} [Banked σ] (d : Dims) (P : Terms) (x : EStateM Fault σ α) (Q : α → Terms) : Prop :=
  ∀ s s' : σ, Beside d P s s' → ∀ a s₁, x s = .ok a s₁ → ∃ s₁', x s' = .ok a s₁' ∧ Beside d (Q a) s₁ s₁'

/-- A clear rule that leaves alone what can be relied on. -/
def Still {σ α : Type} [Banked σ] (d : Dims) (P : Terms) (x : EStateM Fault σ α) : Prop := Clear d P x fun _ => P

namespace Clear

variable {σ α β : Type} [Banked σ] {d : Dims} {P P' R : Terms} {Q Q' : α → Terms} {x : EStateM Fault σ α}

theorem bind {k : α → EStateM Fault σ β} {S : β → Terms} (hx : Clear d P x Q) (hk : ∀ a, Clear d (Q a) (k a) S) :
    Clear d P (x >>= k) S := by
  intro s s' h c s₂ hrun
  obtain ⟨a, s₁, hrun, hrest⟩ := bind_eq_ok hrun
  obtain ⟨s₁', hrun', h₁⟩ := hx s s' h a s₁ hrun
  rw [bind_of_ok hrun']
  exact hk a s₁ s₁' h₁ c s₂ hrest

theorem mono (hx : Clear d P x Q) (hP : ∀ j f c, P' j f c → P j f c) (hQ : ∀ a j f c, Q a j f c → Q' a j f c) :
    Clear d P' x Q' := by
  intro s s' h a s₁ hrun
  obtain ⟨s₁', hrun', h₁⟩ := hx s s' ⟨h.same, h.shadows.mono hP⟩ a s₁ hrun
  exact ⟨s₁', hrun', h₁.same, h₁.shadows.mono (hQ a)⟩

theorem weaken (hx : Clear d P x Q) (hQ : ∀ a j f c, Q a j f c → Q' a j f c) : Clear d P x Q' :=
  hx.mono (fun _ _ _ h => h) hQ

theorem from_ (hx : Clear d P x Q) (hP : ∀ j f c, P' j f c → P j f c) : Clear d P' x Q :=
  hx.mono hP fun _ _ _ _ h => h

theorem throw (e : Fault) : Clear d P (throw e : EStateM Fault σ α) Q := by
  intro s s' _ a s₁ hrun
  cases hrun

theorem pure (a : α) : Clear d P (pure a : EStateM Fault σ α) fun _ => P := by
  intro s s' h _ s₁ hrun
  cases hrun
  exact ⟨s', rfl, h⟩

theorem answer {a : α} (h : ∀ j f c, P j f c → Q a j f c) : Clear d P (Pure.pure a : EStateM Fault σ α) Q := by
  intro s s' hs _ s₁ hrun
  cases hrun
  exact ⟨s', rfl, hs.same, hs.shadows.mono h⟩

theorem ite {p : Prop} [Decidable p] {y : EStateM Fault σ α} (hx : p → Clear d P x Q) (hy : ¬ p → Clear d P y Q) :
    Clear d P (if p then x else y) Q := by
  split
  · exact hx ‹_›
  · exact hy ‹_›

theorem check_bind {p : Bool} {k : Unit → EStateM Fault σ β} {S : β → Terms} (hk : p = true → Clear d P (k ()) S) :
    Clear d P (check p >>= k) S := by
  intro s s' h a s₁ hrun
  obtain ⟨hp, hrun⟩ := check_bind_eq_ok hrun
  obtain ⟨s₁', hrun', h₁⟩ := hk hp s s' h a s₁ hrun
  refine ⟨s₁', ?_, h₁⟩
  rw [hp]
  exact hrun'

theorem expect_bind {e : Fault} {o : Option α} {k : α → EStateM Fault σ β} {S : β → Terms}
    (hk : ∀ a, o = some a → Clear d P (k a) S) : Clear d P (expect e o >>= k) S := by
  cases o with
  | none =>
    intro s s' _ c s₁ hrun
    cases hrun
  | some a => exact hk a rfl

theorem gets {k : σ → EStateM Fault σ β} {S : β → Terms} (hk : ∀ s h l, k (withBank s ((bank s).veil h l)) = k s)
    (h : ∀ s, Clear d P (k s) S) : Clear d P (get >>= k) S := by
  intro s s' hs a s₁ hrun
  rw [bind_of_ok get_run] at hrun ⊢
  rw [show k s' = k s by rw [hs.same, hs.shadows.same, hk]]
  exact h s s s' hs a s₁ hrun

end Clear

namespace Still

variable {σ α β γ : Type} [Banked σ] {d : Dims} {P : Terms} {x y : EStateM Fault σ α}

@[grind ←]
theorem pure (a : α) : Still d P (pure a : EStateM Fault σ α) := Clear.pure a

@[grind ←]
theorem throw (e : Fault) : Still d P (throw e : EStateM Fault σ α) := Clear.throw e

@[grind ←]
theorem bind {k : α → EStateM Fault σ β} (hx : Still d P x) (hk : ∀ a, Still d P (k a)) : Still d P (x >>= k) :=
  Clear.bind hx hk

theorem then_ {k : α → EStateM Fault σ β} {S : β → Terms} (hx : Still d P x) (hk : ∀ a, Clear d P (k a) S) :
    Clear d P (x >>= k) S :=
  Clear.bind hx hk

theorem composes : Composes fun (α : Type) (x : EStateM Fault σ α) => Still d P x := ⟨pure, throw, bind⟩

@[grind ←]
theorem map (hx : Still d P x) (g : α → β) : Still d P (g <$> x) := composes.map hx g

@[grind ←]
theorem discard (hx : Still d P x) : Still d P (discard x : EStateM Fault σ PUnit) := hx.map _

theorem ite {p : Prop} [Decidable p] (hx : Still d P x) (hy : Still d P y) : Still d P (if p then x else y) := by
  split
  · exact hx
  · exact hy

theorem branch {p : Prop} [Decidable p] (hx : p → Still d P x) (hy : ¬ p → Still d P y) :
    Still d P (if p then x else y) :=
  Clear.ite hx hy

@[grind ←]
theorem check (p : Bool) : Still d P (check p : EStateM Fault σ Unit) := composes.check p

@[grind ←]
theorem expect (e : Fault) (o : Option α) : Still d P (expect e o : EStateM Fault σ α) := composes.expect e o

theorem forIn {xs : List γ} {b : β} {f : γ → β → EStateM Fault σ (ForInStep β)} (h : ∀ a ∈ xs, ∀ b, Still d P (f a b)) :
    Still d P (forIn xs b f) :=
  composes.forIn h

theorem mapM {xs : List γ} {f : γ → EStateM Fault σ β} (h : ∀ a ∈ xs, Still d P (f a)) : Still d P (xs.mapM f) :=
  composes.mapM h

theorem foldlM {xs : List γ} {f : β → γ → EStateM Fault σ β} {b : β} (h : ∀ a ∈ xs, ∀ b, Still d P (f b a)) :
    Still d P (xs.foldlM f b) :=
  composes.foldlM h

end Still

namespace Bank

variable {α β : Type} {d : Dims} {P Q : Terms} {L : Fact → Cell → Prop} {i : Nat}

theorem clear_of {x : BankM α} {S : α → Terms}
    (h : ∀ b b', b.Shadows d P b' → ∀ a b₁, x b = .ok a b₁ → ∃ b₁', x b' = .ok a b₁' ∧ b₁.Shadows d (S a) b₁') :
    Clear d P x S := by
  intro b b' hb a b₁ hrun
  obtain ⟨b₁', hrun', h₁⟩ := h b b' hb.shadows a b₁ hrun
  exact ⟨b₁', hrun', rfl, h₁⟩

/-! Accesses to the cells. -/

theorem still_gets {f : Bank → α} (hf : ∀ b h l, f (b.veil h l) = f b) : Still d P (do return f (← get) : BankM α) := by
  refine clear_of fun b b' h a b₁ hrun => ?_
  cases hrun
  refine ⟨b', ?_, h⟩
  rw [bind_of_ok get_run, pure_run, show f b' = f b by rw [h.same, hf]]

@[grind ←]
theorem still_cell (i : Nat) : Still d P (cell i) := still_gets fun _ _ _ => rfl

@[grind ←]
theorem still_slot (i : Int) : Still d P (slot i) := still_gets fun _ _ _ => rfl

theorem Shadows.reach' {b b' : Bank} (h : b.Shadows d P b') : b'.reach = d.reach := by
  rw [h.same]
  exact h.reach

theorem Shadows.size' {b b' : Bank} (h : b.Shadows d P b') : b'.cells.size = d.size := by
  rw [h.same]
  exact h.size

theorem clear_register_bind {r : Int} {k : Nat → BankM β} {S : β → Terms}
    (hk : ∀ i < d.reach, Clear d P (k i) S) : Clear d P (register r >>= k) S := by
  refine clear_of fun b b' h c b₁ hrun => ?_
  simp only [register, bind_assoc, bind_of_ok get_run, h.reach, h.reach'] at hrun ⊢
  cases hw : wrapIndex? d.reach r with
  | none =>
    rw [hw] at hrun
    cases hrun
  | some i =>
    rw [hw] at hrun
    obtain ⟨b₁', hrun', h₁⟩ := hk i (wrapIndex?_lt hw) b b' ⟨rfl, h⟩ c b₁ hrun
    exact ⟨b₁', hrun', h₁.shadows⟩

@[grind ←]
theorem still_register_bind {r : Int} {k : Nat → BankM β} (hk : ∀ i < d.reach, Still d P (k i)) :
    Still d P (register r >>= k) :=
  clear_register_bind hk

theorem clear_parameter_bind {r : Int} {k : Nat → BankM β} {S : β → Terms}
    (hk : ∀ i < d.size, d.reach ≤ i → Clear d P (k i) S) : Clear d P (parameter r >>= k) S := by
  refine clear_of fun b b' h c b₁ hrun => ?_
  simp only [parameter, bind_assoc, bind_of_ok get_run, h.reach, h.reach', h.size, h.size'] at hrun ⊢
  cases hw : wrapIndex? (d.size - d.reach) r with
  | none =>
    rw [hw] at hrun
    cases hrun
  | some i =>
    rw [hw] at hrun
    have hi := wrapIndex?_lt hw
    obtain ⟨b₁', hrun', h₁⟩ := hk (d.reach + i) (by omega) (by omega) b b' ⟨rfl, h⟩ c b₁ hrun
    exact ⟨b₁', hrun', h₁.shadows⟩

@[grind ←]
theorem still_freshName : Still d P freshName := by
  refine clear_of fun b b' h a b₁ hrun => ?_
  cases hrun
  refine ⟨b'.renewed, ?_, h.renewed⟩
  rw [freshName_run, show b'.fresh = b.fresh by rw [h.same]; rfl]

theorem clear_setCell (hi : i < d.size) {c : Cell} (hne : ∀ j, j ≠ i → ∀ f c, P j f c → Q j f c)
    (hQ : ∀ f e, P i f e → Q i f c) : Clear d P (setCell i c) fun _ => Q := by
  refine clear_of fun b b' h a b₁ hrun => ?_
  cases hrun
  exact ⟨_, setCell_run b' i c, h.withCell hi c hne fun f hf => hQ f _ hf⟩

theorem clear_modifyCell (hi : i < d.size) {g : Cell → Cell} (hne : ∀ j, j ≠ i → ∀ f c, P j f c → Q j f c)
    (hQ : ∀ f c, P i f c → Q i f (g c)) : Clear d P (modifyCell i g) fun _ => Q := by
  refine clear_of fun b b' h a b₁ hrun => ?_
  cases hrun
  refine ⟨_, modifyCell_run b' i g, ?_⟩
  rw [h.cellAt]
  exact h.withCell hi _ hne fun f hf => hQ f _ hf

theorem clear_putCell {c : Cell} (hs : Q.Sound) (hne : ∀ j, j ≠ i → ∀ f c, P j f c → Q j f c)
    (hQ : ∀ f e, P i f e → Q i f c) : Clear d P (putCell i c) fun _ => Q := by
  refine clear_of fun b b' h a b₁ hrun => ?_
  rw [putCell_run] at hrun
  cases hrun
  exact ⟨_, putCell_run b' i c, h.put c (fun j => (hs j).parts) hne fun f hf => hQ f _ hf⟩

/-! Accesses through the knowledge. -/

theorem Shadows.fact_blind {b b' : Bank} {s : Sheet} (h : b.Shadows d P b') (hk : b'.Keeps s) (j : Nat) : s.fact j = {} :=
  hk.fact_unused h.off j

theorem clear_flags (hP : P.Sound) (hi : i < d.size) : Clear d P (flags i) (P.seen i) := by
  refine clear_of fun b b' h a b₁ hrun => ?_
  obtain ⟨s, hk, -⟩ := h.knows
  obtain ⟨s', hk'⟩ := h.blind
  by_cases ht : ∀ g, (s.fact i).flags? = some g → g = (b.cellAt i).flags
  · obtain ⟨b₂, hrun₂, hn⟩ := hk.flags_run ht
    rw [hrun₂] at hrun
    cases hrun
    obtain ⟨b₁', hrun', hn'⟩ := hk'.flags_run (i := i) fun g hg => by
      rw [h.fact_blind hk'] at hg
      cases hg
    rw [h.cellAt] at hrun' hn'
    refine ⟨b₁', hrun', h.noted_only hk hi hn hn' (fun j => (hP.seen i _ j).like) ?_ ?_⟩
    · intro j hj f c hf
      rwa [Terms.seen, Function.update_of_ne hj]
    · intro f hplain hf
      rw [Terms.seen, Function.update_self]
      refine ⟨hplain, (hP i).look hf, fun g hg => ?_, rfl⟩
      simpa [Fact.noteFlags, Fact.flags?, eq_comm] using hg
  · push Not at ht
    obtain ⟨g, hg, hne⟩ := ht
    rw [hk.flags_run_of_false hg hne] at hrun
    cases hrun

theorem still_flags (hP : P.Sound) (hi : i < d.size) : Still d P (flags i) :=
  (clear_flags hP hi).weaken fun _ _ _ _ h => Terms.of_seen h

theorem clear_setFlags (hi : i < d.size) {g : Flags} (hs : Q.Sound) (hne : ∀ j, j ≠ i → ∀ f c, P j f c → Q j f c)
    (hQ : ∀ f c, P i f c → (f.flags? = some g → c.flags = g) ∧ Q i (f.noteFlags g) (c.withFlags g)) :
    Clear d P (setFlags i g) fun _ => Q := by
  refine clear_of fun b b' h a b₁ hrun => ?_
  obtain ⟨s, hk, hP⟩ := h.knows
  obtain ⟨s', hk'⟩ := h.blind
  obtain ⟨b₂, hrun₂, hn⟩ := hk.noteFlags_run_of (g := g) (h.size ▸ hi) (hQ _ _ (hP i hi)).1
    (fun hw : true = false => by cases hw)
  obtain ⟨b₁', hrun', hn'⟩ := hk'.noteFlags_run_of (i := i) (g := g) (h.size' ▸ hi)
    (fun hg => by
      rw [h.fact_blind hk'] at hg
      cases hg)
    (fun hw : true = false => by cases hw)
  rw [show setFlags i g b = _ from hrun₂] at hrun
  cases hrun
  rw [h.cellAt] at hn'
  exact ⟨b₁', hrun', h.noted hk hi hn hn' (fun j => (hs j).like) hne fun f hplain hf => ⟨hplain, (hQ f _ hf).2⟩⟩

theorem Keeps.noteFlags_blind {b : Bank} (hk : b.Keeps s) (hoff : b.holder.useCache = false) (g : Flags) :
    noteFlags false i g b = .ok () b := by
  have hfact : (s.fact i).known.flags = false := by rw [hk.fact_unused hoff]; rfl
  simp only [noteFlags, bind_of_ok get_run, hk.indexed, if_true, bind_of_ok hk.current_run, hfact, Bool.false_and,
    Bool.false_eq_true, if_false, pure_bind, hoff, pure_run]

theorem Keeps.noteFlags_eq_ok {b b₁ : Bank} (hk : b.Keeps s) (hi : i < b.cells.size) (hon : b.holder.useCache = true)
    {g : Flags} (hrun : noteFlags false i g b = .ok () b₁) :
    ((s.fact i).flags? = some g ∧ b₁ = b) ∨
      (b.cellAt i).flags = g ∧ b.Notes (s.facts.modify i (Fact.noteFlags g)) b₁ := by
  by_cases hknown : ((s.fact i).known.flags && (s.fact i).flags == g) = true
  · simp only [noteFlags, bind_of_ok get_run, hk.indexed, if_true, bind_of_ok hk.current_run, hknown] at hrun
    cases hrun
    simp only [Bool.and_eq_true, beq_iff_eq] at hknown
    exact .inl ⟨by simp [Fact.flags?, hknown.1, hknown.2], rfl⟩
  · by_cases hg : (b.cellAt i).flags = g
    · obtain ⟨b₂, hrun₂, hn⟩ := hk.noteFlags_run_of hi (fun _ => hg) fun _ : false = false => hg
      rw [hrun₂] at hrun
      cases hrun
      rw [← hg, show (b.cellAt i).withFlags (b.cellAt i).flags = b.cellAt i from rfl, withCell_cellAt, hg] at hn
      exact .inr ⟨hg, hn⟩
    · obtain ⟨b₂, hnote, hn⟩ := hk.note (Sheet.setFlags_yields hk.plain i g) (hk.width_modify i _)
      obtain ⟨t, hkt, -⟩ := hn.keeps
      have hcell : (b₂.cellAt i).flags ≠ g := by rwa [hn.cellAt]
      simp only [noteFlags, bind_of_ok get_run, hk.indexed, if_true, bind_of_ok hk.current_run, if_neg hknown,
        Bool.false_eq_true, if_false, pure_bind, hon] at hrun
      rw [← bind_assoc, bind_of_ok hnote, bind_of_ok hkt.current_run, bind_of_ok (cell_run b₂ i)] at hrun
      rw [beq_eq_false_iff_ne.mpr hcell, Bool.and_false] at hrun
      cases hrun

theorem clear_noteFlags (hi : i < d.size) {g : Flags} (hs : Q.Sound) (hne : ∀ j, j ≠ i → ∀ f c, P j f c → Q j f c)
    (hknown : ∀ f c, P i f c → f.flags? = some g → Q i f c) (hQ : ∀ f c, P i f c → c.flags = g → Q i (f.noteFlags g) c) :
    Clear d P (noteFlags false i g) fun _ => Q := by
  refine clear_of fun b b' h a b₁ hrun => ?_
  obtain ⟨s, hk, hP⟩ := h.knows
  obtain ⟨s', hk'⟩ := h.blind
  refine ⟨b', hk'.noteFlags_blind h.off g, ?_⟩
  rcases hk.noteFlags_eq_ok (h.size ▸ hi) h.on hrun with ⟨hf, rfl⟩ | ⟨hg, hn⟩
  · refine { h with knows := ⟨s, hk, fun j hj => ?_⟩ }
    by_cases hji : j = i
    · subst hji
      exact hknown _ _ (hP j hj) hf
    · exact hne j hji _ _ (hP j hj)
  · refine h.noted_only hk hi hn (hk'.notes_unused h.off (s'.facts.modify i id)) (fun j => (hs j).like) hne fun f hplain hf => ?_
    exact ⟨hplain, hQ f _ hf hg⟩

theorem Shadows.setInt {b b' b₁ : Bank} (h : b.Shadows d P b') (hi : i < d.size) {n : Int} {c : Bool} (c' : Bool)
    (hrun : setInt i n c b = .ok () b₁) (hs : Q.Sound) (hne : ∀ j, j ≠ i → ∀ f c, P j f c → Q j f c)
    (hQ : fitsWord n = true → ∀ f e, P i f e →
      Q i ((if c then Fact.noteInt n else Fact.dropInt) f) (e.withPayload (intToWord n))) :
    ∃ b₁', Bank.setInt i n c' b' = .ok () b₁' ∧ b₁.Shadows d Q b₁' := by
  obtain ⟨s, hk, -⟩ := h.knows
  obtain ⟨s', hk'⟩ := h.blind
  cases hn : fitsWord n with
  | false =>
    rw [setInt_run_of_not_fits b i hn] at hrun
    cases hrun
  | true =>
    obtain ⟨b₂, hrun₂, hnotes⟩ := hk.setInt_run i hn c
    rw [hrun₂] at hrun
    cases hrun
    obtain ⟨b₁', hrun', hnotes'⟩ := hk'.setInt_run i hn c'
    rw [h.cellAt] at hnotes'
    refine ⟨b₁', hrun', h.noted hk hi hnotes hnotes' (fun j => (hs j).like) hne fun f hplain hf => ⟨?_, hQ hn f _ hf⟩⟩
    cases c <;> exact hplain

theorem clear_setInt (hi : i < d.size) {n : Int} {constant : Bool} (hs : Q.Sound)
    (hne : ∀ j, j ≠ i → ∀ f c, P j f c → Q j f c)
    (hQ : fitsWord n = true → ∀ f e, P i f e →
      Q i ((if constant then Fact.noteInt n else Fact.dropInt) f) (e.withPayload (intToWord n))) :
    Clear d P (setInt i n constant) fun _ => Q :=
  clear_of fun _ _ h _ _ hrun => h.setInt hi constant hrun hs hne hQ

theorem clear_setInt_of (hi : i < d.size) {n : Int} {e : BankM Bool} (hs : Q.Sound)
    (he : ∀ b s, b.Keeps s → ∃ c, e b = .ok c b) (hne : ∀ j, j ≠ i → ∀ f c, P j f c → Q j f c)
    (hQ : fitsWord n = true → ∀ c : Bool, ∀ f e, P i f e →
      Q i ((if c then Fact.noteInt n else Fact.dropInt) f) (e.withPayload (intToWord n))) :
    Clear d P (do setInt i n (← e)) fun _ => Q := by
  refine clear_of fun b b' h a b₁ hrun => ?_
  obtain ⟨s, hk, -⟩ := h.knows
  obtain ⟨s', hk'⟩ := h.blind
  obtain ⟨c, hc⟩ := he b s hk
  obtain ⟨c', hc'⟩ := he b' s' hk'
  rw [bind_of_ok hc] at hrun
  rw [bind_of_ok hc']
  exact h.setInt hi c' hrun hs hne fun hn f e hf => hQ hn c f e hf

theorem clear_setReal (hi : i < d.size) {x : Number} (hs : Q.Sound) (hne : ∀ j, j ≠ i → ∀ f c, P j f c → Q j f c)
    (hQ : ∀ f e, P i f e → Q i f.dropReal (e.withPayload x.toDouble.bits)) :
    Clear d P (setReal i x false) fun _ => Q := by
  refine clear_of fun b b' h a b₁ hrun => ?_
  obtain ⟨s, hk, -⟩ := h.knows
  obtain ⟨s', hk'⟩ := h.blind
  obtain ⟨b₂, hrun₂, hn⟩ := hk.setReal_run i (x := x) fun h : false = true => nomatch h
  rw [hrun₂] at hrun
  cases hrun
  obtain ⟨b₁', hrun', hn'⟩ := hk'.setReal_run i (x := x) fun h : false = true => nomatch h
  rw [h.cellAt] at hn'
  exact ⟨b₁', hrun', h.noted hk hi hn hn' (fun j => (hs j).like) hne fun f hplain hf => ⟨hplain, hQ f _ hf⟩⟩

theorem clear_setConstantReal (hi : i < d.size) {x : Double} (hx : x.isNaN = false) (hs : Q.Sound)
    (hne : ∀ j, j ≠ i → ∀ f c, P j f c → Q j f c)
    (hQ : ∀ f e, P i f e → Q i (f.noteReal (.real x)) (e.withPayload x.bits)) :
    Clear d P (setReal i (.real x) true) fun _ => Q := by
  refine clear_of fun b b' h a b₁ hrun => ?_
  obtain ⟨s, hk, -⟩ := h.knows
  obtain ⟨s', hk'⟩ := h.blind
  cases hinf : x.isInf with
  | true =>
    obtain ⟨l, herror⟩ := hk.setReal_run_infinite (h.size ▸ hi) hinf
    rw [herror] at hrun
    cases hrun
  | false =>
    have hplain : (Number.real x).Plain := Double.isFinite_of_not hx hinf
    obtain ⟨b₂, hrun₂, hn⟩ := hk.setReal_run i (x := .real x) fun _ : true = true => hplain
    rw [hrun₂] at hrun
    cases hrun
    obtain ⟨b₁', hrun', hn'⟩ := hk'.setReal_run i (x := .real x) fun _ : true = true => hplain
    rw [h.cellAt] at hn'
    exact ⟨b₁', hrun', h.noted hk hi hn hn' (fun j => (hs j).like) hne fun f _ hf => ⟨hplain, hQ f _ hf⟩⟩

theorem still_int (hi : i < d.size) (hP : ∀ f c, P i f c → f.IntExact c) : Still d P (int i) := by
  refine clear_of fun b b' h a b₁ hrun => ?_
  obtain ⟨s, hk, hs⟩ := h.knows
  obtain ⟨s', hk'⟩ := h.blind
  have hexact : (s.fact i).int?.getD (b.cellAt i).int = (b.cellAt i).int := by
    cases hn : (s.fact i).int? with
    | none => rfl
    | some n => exact hP _ _ (hs i hi) n hn
  rw [hk.int_run i, hexact] at hrun
  cases hrun
  refine ⟨b', ?_, h⟩
  rw [hk'.int_run i, h.fact_blind hk', h.cellAt]
  rfl

theorem still_real (hi : i < d.size) (hP : ∀ f c, P i f c → f.RealExact c) : Still d P (real i) := by
  refine clear_of fun b b' h a b₁ hrun => ?_
  obtain ⟨s, hk, hs⟩ := h.knows
  obtain ⟨s', hk'⟩ := h.blind
  have hexact : (s.fact i).real?.getD (.real (b.cellAt i).real) = .real (b.cellAt i).real := by
    cases hx : (s.fact i).real? with
    | none => rfl
    | some x => exact (hP _ _ (hs i hi) x hx).2
  rw [hk.real_run i, hexact] at hrun
  cases hrun
  refine ⟨b', ?_, h⟩
  rw [hk'.real_run i, h.fact_blind hk', h.cellAt]
  rfl

theorem clear_forgetFact (hi : i < d.size) (hlike : ∀ j {f g c}, Q j g c → f.Like g → f.Plain → g.Plain → Q j f c)
    (hne : ∀ j, j ≠ i → ∀ f c, P j f c → Q j f c) (hQ : ∀ f c, f.known = .nothing → Q i f c) :
    Clear d P (forgetFact i) fun _ => Q := by
  refine clear_of fun b b' h a b₁ hrun => ?_
  obtain ⟨s, hk, -⟩ := h.knows
  obtain ⟨s', hk'⟩ := h.blind
  obtain ⟨b₂, hrun₂, hn⟩ := hk.forgetFact_run i
  rw [hrun₂] at hrun
  cases hrun
  obtain ⟨b₁', hrun', hn'⟩ := hk'.forgetFact_run i
  refine ⟨b₁', hrun', h.noted_only hk hi hn hn' hlike hne fun f hplain _ => ⟨?_, hQ _ _ f.forget_known⟩⟩
  unfold Fact.forget
  split <;> exact hplain

theorem clear_invalidate (hi : i < d.size) (hlike : ∀ j {f g c}, Q j g c → f.Like g → f.Plain → g.Plain → Q j f c)
    (hne : ∀ j, j ≠ i → ∀ f c, P j f c → Q j f c) (hQ : ∀ f c, f.known = .nothing → Q i f c) :
    Clear d P (invalidate i) fun _ => Q := by
  refine clear_of fun b b' h a b₁ hrun => ?_
  obtain ⟨s, hk, -⟩ := h.knows
  obtain ⟨s', hk'⟩ := h.blind
  simp only [invalidate, bind_of_ok get_run, hk.indexed, hk'.indexed, if_true] at hrun ⊢
  obtain ⟨b₁', hrun', h₁⟩ := clear_forgetFact hi hlike hne hQ b b' ⟨rfl, h⟩ a b₁ hrun
  exact ⟨b₁', hrun', h₁.shadows⟩

/-- The fact says nothing, whatever the cell is. -/
def nothingAt (Q : Terms) (i : Nat) : Terms := Function.update Q i fun f _ => f.known = .nothing

theorem clear_invalidate_nothing (hi : i < d.size) (hs : Q.Sound) (hne : ∀ j, j ≠ i → ∀ f c, P j f c → Q j f c) :
    Clear d P (invalidate i) fun _ => nothingAt Q i := by
  refine clear_invalidate hi (fun j {f g c} h hl hf hg => ?_) (fun j hj f c hf => ?_) (fun f c hf => ?_)
  · unfold nothingAt at *
    by_cases hj : j = i
    · subst hj
      rw [Function.update_self] at h ⊢
      exact hl.known.trans h
    · rw [Function.update_of_ne hj] at h ⊢
      exact (hs j).like h hl hf hg
  · rw [nothingAt, Function.update_of_ne hj]
    exact hne j hj f c hf
  · rwa [nothingAt, Function.update_self]

theorem clear_putCell_nothing {c : Cell} (hs : Q.Sound) (hQ : ∀ f c, f.known = .nothing → Q i f c) :
    Clear d (nothingAt Q i) (putCell i c) fun _ => Q := by
  refine clear_putCell hs (fun j hj f e hf => ?_) fun f e hf => ?_
  · rwa [nothingAt, Function.update_of_ne hj] at hf
  · rw [nothingAt, Function.update_self] at hf
    exact hQ f _ hf

theorem clear_direct (hi : i < d.size) {rule : Nat → Cell → Cell} (hs : Q.Sound)
    (hne : ∀ j, j ≠ i → ∀ f c, P j f c → Q j f c) (hQ : ∀ f c, f.known = .nothing → Q i f c) :
    Clear d P (direct i rule) fun _ => Q :=
  (clear_invalidate_nothing hi hs hne).bind fun _ => still_freshName.then_ fun _ =>
    (still_cell i).then_ fun _ => clear_putCell_nothing hs hQ

theorem clear_forgetAll (hQ : ∀ j f c, f.known = .nothing → Q j f c) : Clear d P forgetAll fun _ => Q := by
  refine clear_of fun b b' h a b₁ hrun => ?_
  obtain ⟨s, hk, -⟩ := h.knows
  obtain ⟨s', hk'⟩ := h.blind
  obtain ⟨b₂, hrun₂, t, l, rfl, hk₁, hs⟩ := hk.forgetAll_run
  rw [hrun₂] at hrun
  cases hrun
  obtain ⟨_, hrun', t', l', rfl, hk₁', -⟩ := hk'.forgetAll_run
  refine ⟨_, hrun', h.reach, h.size, ⟨t, hk₁, fun j hj => hQ j _ _ ?_⟩, ?_, ⟨t', hk₁'⟩, ?_, h.sides.holding _ _, ?_⟩
  · have hlike := hs.fact j
    rw [noted, if_pos h.on, Sheet.getD_blank] at hlike
    exact hlike.known
  · simpa [knowing] using h.on
  · simpa [knowing] using h.off
  · rw [h.same]
    rfl

end Bank

end QueryMachine
