import Mathlib
import QueryMachine.Machine.Run
import QueryMachine.Proofs.Accesses

/-!
What a check of the registers says. It leaves the bank as it is, and passes exactly if all that is known
about the registers is true of them.
-/

namespace QueryMachine

/-- The computation changes nothing; it passes where `P` holds and gives up otherwise. -/
def Guards {σ : Type} (x : EStateM Fault σ Unit) (s : σ) (P : Prop) : Prop :=
  (x s = .ok () s ∧ P) ∨ (x s = .error (.assertion "") s ∧ ¬ P)

namespace Guards

variable {σ : Type} {x y : EStateM Fault σ Unit} {s : σ} {P Q : Prop}

theorem congr (h : Guards x s P) (hpq : P ↔ Q) : Guards x s Q := by
  rwa [Guards, ← hpq]

theorem run (h : Guards x s P) (hp : P) : x s = .ok () s := by
  rcases h with ⟨hrun, -⟩ | ⟨-, hnot⟩
  · exact hrun
  · exact absurd hp hnot

theorem check (p : Bool) (s : σ) : Guards (check p) s (p = true) := by
  cases p
  · exact .inr ⟨rfl, Bool.false_ne_true⟩
  · exact .inl ⟨rfl, rfl⟩

theorem seq (hx : Guards x s P) (hy : Guards y s Q) : Guards (do x; y) s (P ∧ Q) := by
  rcases hx with ⟨hx, hp⟩ | ⟨hx, hp⟩
  · rcases hy with ⟨hy, hq⟩ | ⟨hy, hq⟩
    · exact .inl ⟨(bind_of_ok hx).trans hy, hp, hq⟩
    · exact .inr ⟨(bind_of_ok hx).trans hy, fun h => hq h.2⟩
  · exact .inr ⟨bind_of_error hx, fun h => hp h.1⟩

theorem when {p : Bool} (hx : p = true → Guards x s P) (hy : Guards y s Q) :
    Guards (if p then (do x; y) else y) s ((p = true → P) ∧ Q) := by
  cases p
  · exact hy.congr ⟨fun hq => ⟨(nomatch ·), hq⟩, And.right⟩
  · exact ((hx rfl).seq hy).congr ⟨fun h => ⟨fun _ => h.1, h.2⟩, fun h => ⟨h.1 rfl, h.2⟩⟩

theorem last {p : Bool} (hx : p = true → Guards x s P) :
    Guards (if p then x else pure ()) s (p = true → P) := by
  cases p
  · exact .inl ⟨rfl, (nomatch ·)⟩
  · exact (hx rfl).congr ⟨fun hp _ => hp, fun hp => hp rfl⟩

theorem forIn {γ : Type} {xs : List γ} {g : γ → EStateM Fault σ PUnit} {R : γ → Prop}
    (h : ∀ a ∈ xs, Guards (g a) s (R a)) :
    Guards (forIn xs PUnit.unit fun a _ => do g a; pure (.yield PUnit.unit)) s (∀ a ∈ xs, R a) := by
  rw [forIn_eq_forM]
  induction xs with
  | nil => exact .inl ⟨rfl, by simp⟩
  | cons a xs ih =>
    rw [List.forM_cons]
    have hboth := (h a List.mem_cons_self).seq (ih fun b hb => h b (List.mem_cons_of_mem a hb))
    exact hboth.congr List.forall_mem_cons.symm

end Guards

namespace Bank

variable {b : Bank} {s : Sheet}

theorem Keeps.guards_flags (h : b.Keeps s) {i : Nat} (hk : (s.fact i).known.flags = true) :
    Guards (do check ((← flags i) == (b.cellAt i).flags)) b ((s.fact i).flags = (b.cellAt i).flags) := by
  have hrun : flags i b =
      (do check ((s.fact i).flags == (b.cellAt i).flags); return (s.fact i).flags : BankM Flags) b := by
    simp only [flags, bind_of_ok (cell_run b i), bind_of_ok get_run, h.indexed, if_true,
      bind_of_ok h.current_run, hk]
  cases hsame : (s.fact i).flags == (b.cellAt i).flags
  · rw [hsame] at hrun
    exact .inr ⟨bind_of_error hrun, by simpa using hsame⟩
  · rw [hsame] at hrun
    refine .inl ⟨(bind_of_ok hrun).trans ?_, by simpa using hsame⟩
    rw [hsame]
    rfl

theorem Keeps.guards_real (h : b.Keeps s) (i : Nat) :
    Guards (do check ((Number.real (b.cellAt i).real).eq (← real i))) b
      ((Number.real (b.cellAt i).real).eq ((s.fact i).real?.getD (.real (b.cellAt i).real)) = true) := by
  rw [Guards, bind_of_ok (h.real_run i)]
  exact Guards.check _ b

theorem Keeps.guards_int (h : b.Keeps s) (i : Nat) :
    Guards (do check ((b.cellAt i).int == (← int i))) b
      (((b.cellAt i).int == (s.fact i).int?.getD (b.cellAt i).int) = true) := by
  rw [Guards, bind_of_ok (h.int_run i)]
  exact Guards.check _ b

theorem Keeps.guards_checkFacts (h : b.Keeps s) (i : Nat) :
    Guards (checkFacts i) b ((s.fact i).Holds (b.cellAt i) none) := by
  have hall := Guards.when (h.guards_flags (i := i))
    (Guards.when (p := (s.fact i).known.real) (fun _ => h.guards_real i)
      (Guards.last (p := (s.fact i).known.int) fun _ => h.guards_int i))
  simp only [Guards, bind_assoc] at hall
  simp only [Guards, checkFacts, bind_of_ok get_run, h.indexed, if_true, bind_of_ok h.current_run,
    bind_of_ok (cell_run b i)]
  refine Guards.congr hall ⟨?_, fun hholds => ⟨fun hk => ?_, fun hk => ?_, fun hk => ?_⟩⟩
  · rintro ⟨hflags, hreal, hint⟩
    refine ⟨fun g hg => ?_, fun _ n hn => ?_, fun _ x hx => ?_⟩
    · obtain ⟨hk, rfl⟩ : (s.fact i).known.flags = true ∧ (s.fact i).flags = g := by
        simpa [Fact.flags?] using hg
      exact hflags hk
    · have hk : (s.fact i).known.int = true := by
        by_contra hk
        simp [Fact.int?, Fact.isConstantInt, hk] at hn
      have hsame := hint hk
      rw [hn] at hsame
      exact (by simpa using hsame : (b.cellAt i).int = n).symm
    · have hk : (s.fact i).known.real = true := by
        by_contra hk
        simp [Fact.real?, Fact.isConstantReal, hk] at hx
      have hsame := hreal hk
      rwa [hx] at hsame
  · exact hholds.flags _ (by simp [Fact.flags?, hk])
  · obtain ⟨x, hx⟩ : ∃ x, (s.fact i).real? = some x := by
      simp only [Fact.real?, hk, if_true]
      split <;> exact ⟨_, rfl⟩
    rw [hx]
    exact hholds.real (by simp) x hx
  · obtain ⟨n, hn⟩ : ∃ n, (s.fact i).int? = some n := by
      simp only [Fact.int?, hk, if_true]
      split <;> exact ⟨_, rfl⟩
    rw [hn, hholds.int (by simp) n hn]
    simp

/-- A check of the registers passes exactly if all that is known about them is true. -/
theorem Keeps.guards_checkRegisters (h : b.Keeps s) :
    Guards Machine.checkRegisters b (∀ i < b.reach, (s.fact i).Holds (b.cellAt i) none) := by
  have heq : Machine.checkRegisters b =
      (forIn (List.range b.reach) PUnit.unit fun r _ => do checkFacts r; pure (.yield PUnit.unit)) b := by
    rw [Machine.checkRegisters, bind_of_ok get_run]
    exact congrFun (bind_pure _) b
  rw [Guards, heq]
  refine (Guards.forIn fun i _ => h.guards_checkFacts i).congr ?_
  simp only [List.mem_range]

end Bank

end QueryMachine
