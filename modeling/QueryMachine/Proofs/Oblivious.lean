import Mathlib
import QueryMachine.Machine.Basic
import QueryMachine.Function.Fold
import QueryMachine.Proofs.Cells

/-!
Rules that work on cells. They neither look at what is known about the registers nor change it.
-/

namespace QueryMachine

namespace Bank

variable {b : Bank}

theorem cellAt_withCell_ne {i j : Nat} (hij : i ≠ j) (c : Cell) :
    (b.withCell i c).cellAt j = b.cellAt j := by
  simp only [cellAt, withCell, Array.getD_eq_getD_getElem?, Array.getElem?_setIfInBounds, if_neg hij]

theorem marks_cellAt_put {i r : Nat} (hir : i ≠ r) (c : Cell) :
    ((b.put i c).cellAt r).flags = (b.cellAt r).flags ∧
      ((b.put i c).cellAt r).payload = (b.cellAt r).payload := by
  have hsame := cellAt_withCell_ne (b := b) hir c
  unfold put
  split
  · have hmap : ((b.withCell i c).cells.mapIdx fun j d => if j = i then d else c.seeing d).getD r {} =
        c.seeing ((b.withCell i c).cellAt r) := by
      rw [cellAt, Array.getD_eq_getD_getElem?, Array.getD_eq_getD_getElem?, Array.getElem?_mapIdx]
      cases (b.withCell i c).cells[r]? with
      | none => simp [Cell.seeing_of_none c (d := {}) rfl]
      | some d => simp [hir.symm]
    rw [cellAt, hmap, hsame]
    exact ⟨Cell.flags_seeing c _, Cell.payload_seeing c _⟩
  · rw [hsame]
    exact ⟨rfl, rfl⟩

/-- What there is of cells. -/
structure Extent where
  size : Nat
  reach : Nat
  indexed : Bool

def extent (b : Bank) : Extent := ⟨b.cells.size, b.reach, b.indexed⟩

theorem extent_withCell (b : Bank) (r : Nat) (c : Cell) : (b.withCell r c).extent = b.extent := by
  rw [extent, size_withCell]
  rfl

theorem extent_put (b : Bank) (r : Nat) (c : Cell) : (b.put r c).extent = b.extent := by
  rw [extent, size_put, reach_put, indexed_put, extent]

end Bank

/-- States with parts that rules on cells do not look at, and with parts that they do not change. -/
class Veiled (σ : Type) where
  Veil : Type
  /-- The state with other parts that are not looked at. -/
  veil : Veil → σ → σ
  Build : Type
  build : σ → Build

namespace Bank

def veil (h : Holder) (l : Ledger) (b : Bank) : Bank := { b with holder := h, ledger := l }

instance : Veiled Bank := ⟨Holder × Ledger, fun v => veil v.1 v.2, Extent, extent⟩

end Bank

open Veiled

section Oblivious

variable {σ α β : Type} [Veiled σ]

/-- The rule does the same whatever the hidden parts are and leaves them alone. -/
def Oblivious (x : EStateM Fault σ α) : Prop :=
  ∀ (v : Veil σ) (s : σ),
    match x s with
    | .ok a s' => x (veil v s) = .ok a (veil v s') ∧ build s' = build s
    | .error e s' => x (veil v s) = .error e (veil v s') ∧ build s' = build s

namespace Oblivious

@[grind ←]
theorem pure (a : α) : Oblivious (pure a : EStateM Fault σ α) := fun _ _ => ⟨rfl, rfl⟩

@[grind ←]
theorem throw (e : Fault) : Oblivious (throw e : EStateM Fault σ α) := fun _ _ => ⟨rfl, rfl⟩

@[grind ←]
theorem bind {x : EStateM Fault σ α} {k : α → EStateM Fault σ β} (hx : Oblivious x) (hk : ∀ a, Oblivious (k a)) :
    Oblivious (x >>= k) := by
  intro v s
  have hrun := hx v s
  cases h : x s with
  | error e s' =>
    rw [h] at hrun
    rw [bind_of_error h]
    exact ⟨bind_of_error hrun.1, hrun.2⟩
  | ok a s' =>
    rw [h] at hrun
    have hrest := hk a v s'
    rw [bind_of_ok h, bind_of_ok hrun.1]
    cases h' : k a s' with
    | ok c s₂ =>
      rw [h'] at hrest
      exact ⟨hrest.1, hrest.2.trans hrun.2⟩
    | error e s₂ =>
      rw [h'] at hrest
      exact ⟨hrest.1, hrest.2.trans hrun.2⟩

theorem composes : Composes fun (α : Type) (x : EStateM Fault σ α) => Oblivious x := ⟨pure, throw, bind⟩

theorem ite {p : Prop} [Decidable p] {x y : EStateM Fault σ α} (hx : Oblivious x) (hy : Oblivious y) :
    Oblivious (if p then x else y) := by
  split
  · exact hx
  · exact hy

theorem gets {k : σ → EStateM Fault σ β} (hv : ∀ v s, k (veil v s) = k s)
    (hk : ∀ s, Oblivious (k s)) : Oblivious (get >>= k) := by
  intro v s
  have hrun := hk s v s
  rw [bind_of_ok get_run, bind_of_ok get_run, hv]
  exact hrun

theorem of_run {x : EStateM Fault σ α} (a : σ → α) (f : σ → σ) (hrun : ∀ s, x s = .ok (a s) (f s))
    (ha : ∀ v s, a (veil v s) = a s) (hf : ∀ v s, f (veil v s) = veil v (f s))
    (hbuild : ∀ s, build (f s) = build s) : Oblivious x := by
  intro v s
  rw [hrun s]
  refine ⟨?_, hbuild s⟩
  rw [hrun, ha, hf]

theorem modify {f : σ → σ} (hf : ∀ v s, f (veil v s) = veil v (f s))
    (hbuild : ∀ s, build (f s) = build s) : Oblivious (modify f : EStateM Fault σ PUnit) :=
  of_run (fun _ => ⟨⟩) f (fun _ => rfl) (fun _ _ => rfl) hf hbuild

theorem check (p : Bool) : Oblivious (check p : EStateM Fault σ Unit) := composes.check p

theorem discard {x : EStateM Fault σ α} (hx : Oblivious x) : Oblivious (discard x : EStateM Fault σ PUnit) :=
  composes.map hx _

@[grind ←]
theorem expect (e : Fault) (o : Option α) : Oblivious (expect e o : EStateM Fault σ α) := composes.expect e o

theorem forIn {γ : Type} {xs : List γ} {b : β} {f : γ → β → EStateM Fault σ (ForInStep β)}
    (h : ∀ a ∈ xs, ∀ b, Oblivious (f a b)) : Oblivious (forIn xs b f) :=
  composes.forIn h

theorem mapM {γ : Type} {xs : List γ} {f : γ → EStateM Fault σ β} (h : ∀ a ∈ xs, Oblivious (f a)) :
    Oblivious (xs.mapM f) :=
  composes.mapM h

theorem foldlM {γ : Type} {xs : List γ} {f : β → γ → EStateM Fault σ β} {b : β}
    (h : ∀ a ∈ xs, ∀ b, Oblivious (f b a)) : Oblivious (xs.foldlM f b) :=
  composes.foldlM h

end Oblivious

end Oblivious

namespace Bank

@[grind ←]
theorem oblivious_cell (r : Nat) : Oblivious (cell r) :=
  .of_run (fun b => b.cellAt r) id (fun _ => rfl) (fun _ _ => rfl) (fun _ _ => rfl) fun _ => rfl

@[grind ←]
theorem oblivious_setCell (r : Nat) (c : Cell) : Oblivious (setCell r c) :=
  .of_run (fun _ => ()) (fun b => b.withCell r c) (fun _ => rfl) (fun _ _ => rfl) (fun _ _ => rfl)
    fun b => extent_withCell b r c

@[grind ←]
theorem oblivious_modifyCell (r : Nat) (f : Cell → Cell) : Oblivious (modifyCell r f) :=
  (oblivious_cell r).bind fun _ => oblivious_setCell r _

theorem put_veil (b : Bank) (h : Holder) (l : Ledger) (r : Nat) (c : Cell) :
    (b.veil h l).put r c = (b.put r c).veil h l := by
  have hcell : (b.veil h l).cellAt r = b.cellAt r := rfl
  rw [put, put, hcell]
  split <;> rfl

@[grind ←]
theorem oblivious_putCell (r : Nat) (c : Cell) : Oblivious (putCell r c) :=
  .of_run (fun _ => ()) (fun b => b.put r c) (fun b => putCell_run b r c) (fun _ _ => rfl)
    (fun v b => put_veil b v.1 v.2 r c) fun b => extent_put b r c

@[grind ←]
theorem oblivious_freshName : Oblivious freshName :=
  .of_run Bank.fresh renewed (fun _ => rfl) (fun _ _ => rfl) (fun _ _ => rfl) fun _ => rfl

@[grind ←]
theorem oblivious_modifyCellWith (r : Nat) (f : Nat → Cell → Cell) : Oblivious (modifyCellWith r f) :=
  oblivious_freshName.bind fun _ => (oblivious_cell r).bind fun _ => oblivious_putCell r _

@[grind ←]
theorem oblivious_register (i : Int) : Oblivious (register i) := .gets (fun _ _ => rfl) fun _ => .expect _ _

@[grind ←]
theorem oblivious_slot (i : Int) : Oblivious (slot i) := .gets (fun _ _ => rfl) fun _ => .pure _

end Bank

end QueryMachine
