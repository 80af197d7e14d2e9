import Mathlib
import QueryMachine.Function.Context

/-!
What aggregates gather. A step reads a row from its arguments, without regard to what was gathered
before, and adds it to the context; so a context amounts to the rows that were added to it.
-/

namespace QueryMachine

inductive Addend
  | integer (n : Int)
  | double (x : Double)
  deriving Repr, DecidableEq, Inhabited

namespace Addend

def toDouble : Addend → Double
  | integer n => .ofInt n
  | double x => x

/-- The integers before the first row that is not one. -/
def leading : List Addend → List Int
  | integer n :: rows => n :: leading rows
  | _ => []

def total (rows : List Addend) : Double := rows.foldl (fun x row => x.add row.toDouble) .zero

theorem length_leading_le (rows : List Addend) : (leading rows).length ≤ rows.length := by
  fun_induction leading rows with
  | case1 n rows ih => simpa using ih
  | case2 => simp

end Addend

open Addend

namespace RunningSum

def add (s : RunningSum) : Addend → RunningSum
  | .integer n => s.addInt n
  | .double x => s.addReal x

def ofRows (rows : List Addend) : RunningSum := rows.foldl add {}

variable (s : RunningSum) (rows : List Addend)

theorem count_add (row : Addend) : (s.add row).count = s.count + 1 := by
  cases row with
  | integer n => simp only [add, addInt]; split_ifs <;> rfl
  | double x => rfl

theorem real_add (row : Addend) : (s.add row).real = s.real.add row.toDouble := by
  cases row with
  | integer n => simp only [add, addInt]; split_ifs <;> rfl
  | double x => rfl

theorem approx_addInt (n : Int) : (s.addInt n).approx = s.approx := by
  simp only [addInt]
  split_ifs <;> rfl

theorem count_ofRows : (ofRows rows).count = rows.length := by
  have hfold (s : RunningSum) : (rows.foldl add s).count = s.count + rows.length := by
    induction rows generalizing s with
    | nil => rfl
    | cons row rows ih => rw [List.foldl_cons, ih, count_add, List.length_cons]; omega
  rw [ofRows, hfold, Nat.zero_add]

theorem real_ofRows : (ofRows rows).real = total rows := by
  have hfold (s : RunningSum) :
      (rows.foldl add s).real = rows.foldl (fun x row => x.add row.toDouble) s.real := by
    induction rows generalizing s with
    | nil => rfl
    | cons row rows ih => rw [List.foldl_cons, ih, real_add, List.foldl_cons]
  exact hfold {}

theorem frozen_foldl (h : (s.approx || s.overflow) = true) :
    (rows.foldl add s).overflow = s.overflow ∧ (rows.foldl add s).int = s.int ∧
      (s.approx = true → (rows.foldl add s).approx = true) := by
  induction rows generalizing s with
  | nil => exact ⟨rfl, rfl, id⟩
  | cons row rows ih =>
    have hone : (s.add row).overflow = s.overflow ∧ (s.add row).int = s.int ∧
        (s.approx = true → (s.add row).approx = true) := by
      cases row with
      | integer n =>
        have hadd : s.addInt n = { s with count := s.count + 1, real := s.real.add (.ofInt n) } := by
          rw [addInt, if_pos h]
        rw [add, hadd]
        exact ⟨rfl, rfl, id⟩
      | double x => exact ⟨rfl, rfl, fun _ => rfl⟩
    have hnext : ((s.add row).approx || (s.add row).overflow) = true := by
      rw [hone.1]
      cases ha : s.approx with
      | true => rw [hone.2.2 ha]; rfl
      | false => simpa [ha] using Or.inr h
    obtain ⟨hoverflow, hint, happrox⟩ := ih (s.add row) hnext
    exact ⟨hoverflow.trans hone.1, hint.trans hone.2.1, fun ha => happrox (hone.2.2 ha)⟩

theorem approx_ofRows : (ofRows rows).approx = true ↔ (leading rows).length < rows.length := by
  have hfold (s : RunningSum) (hs : s.approx = false) :
      (rows.foldl add s).approx = true ↔ (leading rows).length < rows.length := by
    induction rows generalizing s with
    | nil => simp [hs]
    | cons row rows ih =>
      cases row with
      | integer n =>
        rw [List.foldl_cons, add, ih _ ((approx_addInt s n).trans hs), leading, List.length_cons, List.length_cons]
        omega
      | double x =>
        have happrox := (frozen_foldl (s.addReal x) rows rfl).2.2 rfl
        simpa [leading, add] using happrox
  exact hfold {} rfl

/-- A sum that goes on with `s` overflows at the first sum of leading integers that is too large, and is
their sum otherwise. -/
theorem leading_foldl (ha : s.approx = false) (ho : s.overflow = false) (hs : fitsWord s.int = true) :
    ((rows.foldl add s).overflow = true ↔ ∃ p, p <+: leading rows ∧ fitsWord (s.int + p.sum) = false) ∧
      ((rows.foldl add s).overflow = false → (rows.foldl add s).int = s.int + (leading rows).sum) := by
  induction rows generalizing s with
  | nil => simp [leading, ho, hs]
  | cons row rows ih =>
    cases row with
    | double x =>
      obtain ⟨hoverflow, hint, -⟩ := frozen_foldl (s.addReal x) rows rfl
      simp only [List.foldl_cons, add, hoverflow, hint, leading]
      simp [addReal, ho, hs]
    | integer n =>
      rw [List.foldl_cons, add, leading]
      by_cases hfit : fitsWord (s.int + n) = true
      · have hadd : s.addInt n =
            { s with count := s.count + 1, real := s.real.add (.ofInt n), int := s.int + n } := by
          simp [addInt, ha, ho, hfit]
        obtain ⟨hoverflow, hint⟩ := ih (s.addInt n) (by rw [hadd, ha]) (by rw [hadd, ho]) (by rw [hadd]; exact hfit)
        have hnext : (s.addInt n).int = s.int + n := by rw [hadd]
        rw [hnext] at hoverflow hint
        refine ⟨hoverflow.trans ⟨?_, ?_⟩, fun h => (hint h).trans ?_⟩
        · rintro ⟨p, hp, hsum⟩
          exact ⟨n :: p, List.cons_prefix_cons.mpr ⟨rfl, hp⟩, by rwa [List.sum_cons, ← add_assoc]⟩
        · rintro ⟨_ | ⟨k, p⟩, hp, hsum⟩
          · simp [hs] at hsum
          · obtain ⟨rfl, hrest⟩ := List.cons_prefix_cons.mp hp
            exact ⟨p, hrest, by rwa [List.sum_cons, ← add_assoc] at hsum⟩
        · rw [List.sum_cons, ← add_assoc]
      · have hadd : (s.addInt n).overflow = true := by simp [addInt, ha, ho, hfit]
        obtain ⟨hoverflow, -, -⟩ := frozen_foldl (s.addInt n) rows (by rw [hadd, Bool.or_true])
        rw [hoverflow, hadd]
        refine ⟨⟨fun _ => ⟨[n], by simp, by simpa using hfit⟩, fun _ => rfl⟩, fun h => by cases h⟩

theorem overflow_ofRows :
    (ofRows rows).overflow = true ↔ ∃ p, p <+: leading rows ∧ fitsWord p.sum = false := by
  simpa [ofRows] using (leading_foldl {} rows rfl rfl (by decide)).1

theorem int_ofRows (h : (ofRows rows).overflow = false) : (ofRows rows).int = (leading rows).sum := by
  simpa [ofRows] using (leading_foldl {} rows rfl rfl (by decide)).2 h

end RunningSum

namespace Aggregate

/-- What an aggregate takes from the arguments of one step; a row that counts is `true` for a count. -/
abbrev Row : Aggregate → Type
  | .count => Bool
  | .sum | .avg => Addend
  | .sumLength => Int
  | .joinText => List Bytes

def readAddend (args : List Nat) : BankM Addend := do
  let arg ← Context.single args
  if (← Bank.numericKind arg) = .integer then return .integer (← Bank.intValue arg)
  else return .double (← Bank.realValue arg).toDouble

def readText (arg : Nat) : BankM Bytes := do
  let length ← Bank.valueBytes arg
  match ← Bank.valueText arg with
  | some text => return text.take length.toNat
  | none => return Bytes.ofString "NULL"

/-- Reads a row from the arguments of a step. -/
def read : (a : Aggregate) → List Nat → BankM a.Row
  | .count, [] => return true
  | .count, arg :: _ => return (← Bank.valueKind arg) != .null
  | .sum, args => readAddend args
  | .avg, args => readAddend args
  | .sumLength, args => return (← args.mapM Bank.valueBytes).foldl (· + ·) 0
  | .joinText, args => args.mapM readText

def add : (a : Aggregate) → Context → a.Row → Context
  | .count, .count n, counts => .count (if counts then n + 1 else n)
  | .sum, .sum s, row => .sum (s.add row)
  | .avg, .avg s, row => .avg (s.add row)
  | .sumLength, .sumLength total, n => .sumLength (some (total.getD 0 + n))
  | .joinText, .joinText parts, texts => .joinText (parts ++ texts)
  | _, ctx, _ => ctx

def gather (a : Aggregate) (rows : List a.Row) : Context := rows.foldl a.add (.start a)

theorem gather_append (a : Aggregate) (rows : List a.Row) (row : a.Row) :
    a.gather (rows ++ [row]) = a.add (a.gather rows) row := by
  rw [gather, List.foldl_append]
  rfl

end Aggregate

namespace Context

def aggregate? : Context → Option Aggregate
  | .count _ => some .count
  | .sum _ => some .sum
  | .avg _ => some .avg
  | .sumLength _ => some .sumLength
  | .joinText _ => some .joinText
  | .plain => none

theorem aggregate?_start (a : Aggregate) : (start a).aggregate? = some a := by cases a <;> rfl

theorem aggregate?_add {a : Aggregate} {ctx : Context} (h : ctx.aggregate? = some a) (row : a.Row) :
    (a.add ctx row).aggregate? = some a := by
  cases ctx <;> cases h <;> rfl

theorem aggregate?_gather (a : Aggregate) (rows : List a.Row) : (a.gather rows).aggregate? = some a := by
  have hfold (ctx : Context) (hctx : ctx.aggregate? = some a) :
      (rows.foldl a.add ctx).aggregate? = some a := by
    induction rows generalizing ctx with
    | nil => exact hctx
    | cons row rows ih => exact ih _ (aggregate?_add hctx row)
  exact hfold _ (aggregate?_start a)

theorem sum_step (s : RunningSum) (args : List Nat) :
    (do s.step (← single args)) = (do return s.add (← Aggregate.readAddend args)) := by
  simp only [Aggregate.readAddend, bind_assoc]
  refine congrArg _ (funext fun arg => ?_)
  rw [RunningSum.step]
  refine congrArg _ (funext fun kind => ?_)
  split
  · rw [bind_assoc]; rfl
  · rw [bind_assoc]; rfl

theorem step_eq {a : Aggregate} {ctx : Context} (h : ctx.aggregate? = some a) (args : List Nat) :
    ctx.step args = (do return a.add ctx (← a.read args)) := by
  cases ctx with
  | count n =>
    cases h
    cases args with
    | nil => rfl
    | cons arg args =>
      simp only [step, Aggregate.read, Aggregate.add, bind_assoc, pure_bind]
      refine congrArg _ (funext fun kind => ?_)
      by_cases hkind : kind = .null <;> simp [hkind]
  | sum s =>
    cases h
    have hstep := congrArg (· >>= fun s => pure (Context.sum s)) (sum_step s args)
    simpa only [step, Aggregate.read, Aggregate.add, bind_assoc, pure_bind] using hstep
  | avg s =>
    cases h
    have hstep := congrArg (· >>= fun s => pure (Context.avg s)) (sum_step s args)
    simpa only [step, Aggregate.read, Aggregate.add, bind_assoc, pure_bind] using hstep
  | sumLength total =>
    cases h
    simp only [step, Aggregate.read, Aggregate.add, bind_assoc, pure_bind]
  | joinText parts =>
    cases h
    rfl
  | plain => cases h

end Context

namespace Aggregate

theorem gather_count (rows : List Bool) : gather .count rows = .count (rows.count true) := by
  have hfold (n : Nat) : rows.foldl (add .count) (.count n) = .count (n + rows.count true) := by
    induction rows generalizing n with
    | nil => rfl
    | cons counts rows ih =>
      rw [List.foldl_cons, add, ih, List.count_cons]
      cases counts
      · simp
      · simp; omega
  rw [gather, Context.start, hfold, Nat.zero_add]

theorem gather_sum (rows : List Addend) : gather .sum rows = .sum (.ofRows rows) := by
  have hfold (s : RunningSum) : rows.foldl (add .sum) (.sum s) = .sum (rows.foldl RunningSum.add s) := by
    induction rows generalizing s with
    | nil => rfl
    | cons row rows ih => rw [List.foldl_cons, add, ih, List.foldl_cons]
  exact hfold {}

theorem gather_avg (rows : List Addend) : gather .avg rows = .avg (.ofRows rows) := by
  have hfold (s : RunningSum) : rows.foldl (add .avg) (.avg s) = .avg (rows.foldl RunningSum.add s) := by
    induction rows generalizing s with
    | nil => rfl
    | cons row rows ih => rw [List.foldl_cons, add, ih, List.foldl_cons]
  exact hfold {}

theorem finalize_getD (a : Aggregate) (ctx : Option Context) (out : Nat) :
    a.finalize ctx out = a.finalize (some (ctx.getD (.start a))) out := by
  cases ctx with
  | none => cases a <;> rfl
  | some ctx => rfl

end Aggregate

end QueryMachine
