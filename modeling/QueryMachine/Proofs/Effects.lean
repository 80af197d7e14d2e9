import Mathlib
import QueryMachine.Bank.Basic

/-!
Computations with a state and faults, run step by step.
-/

namespace QueryMachine

section Effects

variable {ε σ α β : Type} {x : EStateM ε σ α} {f : α → EStateM ε σ β} {s s' : σ} {a : α} {e : ε}

theorem bind_of_ok (h : x s = .ok a s') : (x >>= f) s = f a s' := by
  simp only [bind, EStateM.bind, h]

theorem discard_of_ok (h : x s = .ok a s') : (discard x : EStateM ε σ PUnit) s = .ok ⟨⟩ s' :=
  bind_of_ok h

theorem bind_of_error (h : x s = .error e s') : (x >>= f) s = .error e s' := by
  simp only [bind, EStateM.bind, h]

theorem pure_run : (pure a : EStateM ε σ α) s = .ok a s := rfl

theorem get_run : (get : EStateM ε σ σ) s = .ok s s := rfl

theorem modify_run (g : σ → σ) : (modify g : EStateM ε σ PUnit) s = .ok ⟨⟩ (g s) := rfl

theorem throw_run : (throw e : EStateM ε σ α) s = .error e s := rfl

theorem forIn_eq_forM {γ : Type} (xs : List γ) (g : γ → EStateM ε σ PUnit) :
    (forIn xs PUnit.unit fun a _ => do
      g a
      pure (ForInStep.yield PUnit.unit)) = forM xs g := by
  induction xs with
  | nil => rfl
  | cons a xs ih =>
    rw [List.forIn_cons, List.forM_cons, bind_assoc]
    apply bind_congr
    intro _
    rw [pure_bind]
    exact ih

theorem bind_eq_ok {b : β} (h : (x >>= f) s = .ok b s') :
    ∃ a s₁, x s = .ok a s₁ ∧ f a s₁ = .ok b s' := by
  cases hx : x s with
  | ok a s₁ => exact ⟨a, s₁, rfl, by rw [← h, bind_of_ok hx]⟩
  | error e s₁ =>
    rw [bind_of_error hx] at h
    cases h

theorem bind_eq_error (h : (x >>= f) s = .error e s') :
    x s = .error e s' ∨ ∃ a s₁, x s = .ok a s₁ ∧ f a s₁ = .error e s' := by
  cases hx : x s with
  | ok a s₁ => exact .inr ⟨a, s₁, rfl, by rwa [bind_of_ok hx] at h⟩
  | error e' s₁ =>
    rw [bind_of_error hx] at h
    cases h
    exact .inl rfl

theorem answer_of_ok (h : x s = .ok a s') : x.run' s = some a := by
  simp only [EStateM.run', EStateM.run, h]

theorem eq_ok_of_answer (h : x.run' s = some a) : ∃ s', x s = .ok a s' := by
  cases hx : x s with
  | ok c s₁ =>
    simp only [EStateM.run', EStateM.run, hx, Option.some.injEq] at h
    exact ⟨s₁, by rw [h]⟩
  | error e s₁ => simp only [EStateM.run', EStateM.run, hx, reduceCtorEq] at h

theorem check_bind_eq_ok {p : Bool} {f : Unit → EStateM Fault σ β} {b : β}
    (h : (check p >>= f) s = .ok b s') : p = true ∧ f () s = .ok b s' := by
  cases p with
  | true => exact ⟨rfl, h⟩
  | false => cases h

end Effects

/-- A property that computations have if they only answer or give up, and that carries over from a computation and what
follows it to both in turn. -/
structure Composes {σ : Type} (P : ∀ α : Type, EStateM Fault σ α → Prop) : Prop where
  pure {α : Type} (a : α) : P α (pure a)
  throw {α : Type} (e : Fault) : P α (throw e)
  bind {α β : Type} {x : EStateM Fault σ α} {k : α → EStateM Fault σ β} : P α x → (∀ a, P β (k a)) → P β (x >>= k)

namespace Composes

variable {σ α β γ : Type} {P : ∀ α : Type, EStateM Fault σ α → Prop} {xs : List γ} {b : β}

theorem map (hP : Composes P) {x : EStateM Fault σ α} (hx : P α x) (g : α → β) : P β (g <$> x) := by
  rw [map_eq_pure_bind]
  exact hP.bind hx fun _ => hP.pure _

theorem check (hP : Composes P) (p : Bool) : P Unit (check p) := by
  cases p
  · exact hP.throw _
  · exact hP.pure _

theorem expect (hP : Composes P) (e : Fault) (o : Option α) : P α (expect e o) := by
  cases o
  · exact hP.throw _
  · exact hP.pure _

theorem forIn (hP : Composes P) {f : γ → β → EStateM Fault σ (ForInStep β)} (h : ∀ a ∈ xs, ∀ b, P _ (f a b)) :
    P β (forIn xs b f) := by
  induction xs generalizing b with
  | nil => exact hP.pure b
  | cons a xs ih =>
    rw [List.forIn_cons]
    refine hP.bind (h a List.mem_cons_self b) fun s => ?_
    cases s with
    | done b => exact hP.pure b
    | yield b => exact ih fun c hc => h c (List.mem_cons_of_mem a hc)

theorem mapM (hP : Composes P) {f : γ → EStateM Fault σ β} (h : ∀ a ∈ xs, P β (f a)) : P _ (xs.mapM f) := by
  induction xs with
  | nil => exact hP.pure []
  | cons a xs ih =>
    rw [List.mapM_cons]
    refine hP.bind (h a List.mem_cons_self) fun _ => hP.bind ?_ fun _ => hP.pure _
    exact ih fun c hc => h c (List.mem_cons_of_mem a hc)

theorem foldlM (hP : Composes P) {f : β → γ → EStateM Fault σ β} (h : ∀ a ∈ xs, ∀ b, P β (f b a)) :
    P β (xs.foldlM f b) := by
  induction xs generalizing b with
  | nil => exact hP.pure b
  | cons a xs ih =>
    rw [List.foldlM_cons]
    exact hP.bind (h a List.mem_cons_self b) fun b => ih fun c hc => h c (List.mem_cons_of_mem a hc)

end Composes

theorem wrapIndex?_lt {n k : Nat} {j : Int} (h : wrapIndex? n j = some k) : k < n := by
  revert h
  unfold wrapIndex?
  split_ifs <;> simp <;> omega

theorem wrapIndex?_of_lt {n : Nat} {j : Int} (h0 : 0 ≤ j) (hj : j < n) : wrapIndex? n j = some j.toNat := by
  rw [wrapIndex?, if_pos h0, if_pos hj]

end QueryMachine
