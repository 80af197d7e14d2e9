import Mathlib
import QueryMachine.Function.Fold
import QueryMachine.Proofs.Cells
import QueryMachine.Proofs.Gathering
import QueryMachine.Proofs.Words
import QueryMachine.Workload.Folds

/-!
Aggregates with contexts against aggregates that work in place. Both count the same. A sum or a mean in place passes over rows
without a value, and one with a context takes them for the double zero.
-/

namespace QueryMachine

namespace Cell

def addend? (c : Cell) : Option Addend :=
  match c.numericKind.1 with
  | .null => none
  | .integer => some (.integer c.numericKind.2.intValue)
  | _ => some (.double c.numericKind.2.realValue)

def hasValue (c : Cell) : Bool := c.flags.kind != .null

/-- The cell, or if it has no value the double that it is read as, which is zero. -/
def zeroed (c : Cell) : Cell := if c.flags.kind = .null then .ofReal c.realValue else c

theorem addend?_of_null {c : Cell} (h : c.flags.kind = .null) : c.addend? = none := by
  simp [addend?, numericKind, h]

theorem addend?_zeroed_of_null {c : Cell} (h : c.flags.kind = .null) : c.zeroed.addend? = some (.double c.realValue) := by
  rw [zeroed, if_pos h]
  rfl

theorem zeroed_of_value {c : Cell} (h : c.flags.kind ≠ .null) : c.zeroed = c := if_neg h

theorem numericKind_ne_null {c : Cell} (h : c.flags.kind ≠ .null) : c.numericKind.1 ≠ .null := by
  have hnull : c.flags.null = false := by
    by_contra hnull
    exact h (by simp [Flags.kind, hnull])
  rw [numericKind]
  split
  · have hkept : (c.applyNumericAffinity false).flags.null = false := by
      simp only [applyNumericAffinity, Bool.false_eq_true, if_false]
      split_ifs <;> exact hnull
    simp only [Flags.kind, hkept, Bool.false_eq_true, if_false]
    split_ifs <;> exact Value.Kind.noConfusion
  · exact h

theorem kind_numericKind (c : Cell) : c.numericKind.2.flags.kind = c.numericKind.1 := by
  rw [numericKind]
  split <;> rfl

theorem numericKind_of_null {c : Cell} (h : c.flags.kind = .null) : c.numericKind = (.null, c) := by
  rw [numericKind, if_neg (by simp [h]), h]

theorem addend?_of_integer {c : Cell} (h : c.numericKind.1 = .integer) :
    c.addend? = some (.integer c.numericKind.2.intValue) := by
  rw [addend?, h]

theorem addend?_of_double {c : Cell} (h : c.numericKind.1 ≠ .integer) (hnull : c.numericKind.1 ≠ .null) :
    c.addend? = some (.double c.numericKind.2.realValue) := by
  rw [addend?]
  split
  · exact absurd ‹_› hnull
  · exact absurd ‹_› h
  · rfl

theorem int_of_kind {f : Flags} (h : f.kind = .integer) : f.int = true := by
  simp only [Flags.kind] at h
  split_ifs at h
  assumption

end Cell

namespace Fold

/-- Adds a row of at most one value, which is put into register 1, to the aggregate in register 0. -/
def addRow (f : Fold) : Option Cell → BankM Unit
  | none => discard (f.step none [] 0)
  | some c => do
    Bank.setCell 1 c
    discard (f.step none [1] 0)

/-- Writes an outcome to register 0 and answers what is there then, or what is said about a failure. -/
def deliver (o : Outcome) : BankM (Except Bytes Value) := do
  let name ← Bank.freshName
  Bank.setCell 0 (o.write name { flags := .onlyNull })
  match o with
  | .error _ message => return .error message
  | _ => return .ok (← Bank.value 0)

/-- Replaces what has been gathered in register 0 by the result. -/
def finish (f : Fold) : BankM (Except Bytes Value) := do
  deliver (f.outcome (kept? (← Bank.cell 0)))

/-- Adds rows of at most one value to an aggregate in place and answers its result. -/
def resultOf (f : Fold) (rows : List (Option Cell)) : Except Bytes Value :=
  match (do rows.forM f.addRow; f.finish) (Bank.ofCells #[.null, .null] true false 0) with
  | .ok r _ => r
  | .error e _ => .error (Bytes.ofString e.message)

end Fold

/-- The result of an aggregate with a context, or what is said about its failure. -/
def Aggregate.resultOf (a : Aggregate) (rows : List (Option Cell)) : Except Bytes Value :=
  (Workload.fold a rows).mapError fun e => Bytes.ofString e.message

namespace Bank

variable {b : Bank} {i : Nat}

theorem intValue_unindexed (hb : b.indexed = false) (h : (b.cellAt i).flags.int = true) :
    intValue i b = .ok (b.cellAt i).intValue b := by
  rw [intValue, bind_of_ok (flags_unindexed hb i), if_pos h, Cell.intValue, if_pos h]
  exact int_unindexed hb i

theorem realValue_unindexed (hb : b.indexed = false) (i : Nat) :
    ∃ x, realValue i b = .ok x b ∧ x.toDouble = (b.cellAt i).realValue := by
  rw [realValue, bind_of_ok (flags_unindexed hb i), Cell.realValue]
  split_ifs
  · exact ⟨_, real_unindexed hb i, rfl⟩
  · exact ⟨_, bind_of_ok (int_unindexed hb i), rfl⟩
  · exact ⟨_, rfl, rfl⟩
  · exact ⟨_, rfl, rfl⟩

/-- Two registers about which nothing is noted, and the first of them has no value. -/
structure Idle (b : Bank) : Prop where
  indexed : b.indexed = false
  size : b.cells.size = 2
  result : b.cellAt 0 = .null

theorem idle_ofCells : (ofCells #[.null, .null] true false 0).Idle := ⟨rfl, rfl, rfl⟩

theorem Idle.withCell (h : b.Idle) (c : Cell) : (b.withCell 1 c).Idle where
  indexed := h.indexed
  size := by rw [size_withCell, h.size]
  result := by rw [cellAt_withCell (by rw [h.size]; decide), if_neg (by decide), h.result]

theorem Idle.put (h : b.Idle) (c : Cell) : (b.renewed.put 1 c).Idle where
  indexed := (indexed_put _ _ _).trans h.indexed
  size := (size_put _ _ _).trans h.size
  result := by
    have hnull : b.renewed.cellAt 0 = .null := h.result
    rw [cellAt_put (by rw [show b.renewed.cells = b.cells from rfl, h.size]; decide), if_neg (by decide), hnull]
    split
    · exact Cell.seeing_of_none c rfl
    · rfl

theorem Idle.numericKind_run (h : b.Idle) :
    ∃ b', numericKind 1 b = .ok (b.cellAt 1).numericKind.1 b' ∧ b'.cellAt 1 = (b.cellAt 1).numericKind.2 ∧ b'.Idle := by
  have hkind : valueKind 1 b = .ok (b.cellAt 1).flags.kind b := bind_of_ok (flags_unindexed h.indexed 1)
  rw [numericKind, bind_of_ok hkind, Cell.numericKind]
  by_cases htext : (b.cellAt 1).flags.kind = .text
  · let b' := b.renewed.put 1 ((b.cellAt 1).applyNumericAffinity false)
    have hb' : b'.Idle := h.put _
    have hcell : b'.cellAt 1 = (b.cellAt 1).applyNumericAffinity false := by
      rw [cellAt_put (by rw [show b.renewed.cells = b.cells from rfl, h.size]; decide), if_pos rfl]
    have happly : applyNumericAffinity 1 false b = .ok () b' :=
      (bind_of_ok (invalidate_unindexed h.indexed 1)).trans (modifyCellWith_run b 1 _)
    refine ⟨b', ?_, ?_, hb'⟩
    · rw [if_pos htext, if_pos htext, bind_of_ok happly]
      refine (bind_of_ok (flags_unindexed hb'.indexed 1)).trans ?_
      rw [hcell]
      rfl
    · rw [if_pos htext, hcell]
  · rw [if_neg htext, if_neg htext]
    exact ⟨b, hkind, rfl, h⟩

/-- A sum with a context takes a value as one in place does, and no value for zero. -/
theorem Idle.readAddend_run (h : b.Idle) :
    ∃ a b', Aggregate.readAddend [1] b = .ok a b' ∧ (b.cellAt 1).zeroed.addend? = some a ∧ b'.Idle := by
  obtain ⟨b', hkind, hcell, hb'⟩ := h.numericKind_run
  obtain ⟨x, hreal, hx⟩ := realValue_unindexed hb'.indexed 1
  rw [hcell] at hx
  have hread : Aggregate.readAddend [1] b = (if (b.cellAt 1).numericKind.1 = .integer
      then return .integer (← intValue 1) else return .double (← realValue 1).toDouble : BankM Addend) b' := bind_of_ok hkind
  rw [hread]
  by_cases hint : (b.cellAt 1).numericKind.1 = .integer
  · have hvalue : (b.cellAt 1).flags.kind ≠ .null := by
      intro hnull
      rw [Cell.numericKind_of_null hnull] at hint
      cases hint
    have hmark : (b'.cellAt 1).flags.int = true := by
      rw [hcell]
      exact Cell.int_of_kind ((Cell.kind_numericKind _).trans hint)
    refine ⟨.integer (b'.cellAt 1).intValue, b', ?_, ?_, hb'⟩
    · rw [if_pos hint]
      exact bind_of_ok (intValue_unindexed hb'.indexed hmark)
    · rw [Cell.zeroed_of_value hvalue, Cell.addend?_of_integer hint, hcell]
  · refine ⟨.double x.toDouble, b', ?_, ?_, hb'⟩
    · rw [if_neg hint]
      exact bind_of_ok hreal
    · by_cases hnull : (b.cellAt 1).flags.kind = .null
      · rw [Cell.addend?_zeroed_of_null hnull, hx, Cell.numericKind_of_null hnull]
      · rw [Cell.zeroed_of_value hnull, Cell.addend?_of_double hint (Cell.numericKind_ne_null hnull), hx]

end Bank

/-- The value that a double leaves in a register. -/
def Value.ofDouble (x : Double) : Value := if x.isNaN then .null else .real x

namespace Outcome

/-- The value that an outcome leaves if it is a number, or what is said about a failure. -/
def result : Outcome → Except Bytes Value
  | .int n => .ok (.int n)
  | .real x => .ok (.ofDouble x)
  | .error _ message => .error message
  | _ => .ok .null

inductive Numeric : Outcome → Prop
  | nothing : Numeric .nothing
  | int {n : Int} (h : fitsWord n = true) : Numeric (.int n)
  | real (x : Double) : Numeric (.real x)
  | error (code : Nat) (message : Bytes) : Numeric (.error code message)

end Outcome

theorem RunningSum.fitsWord_int_ofRows {rows : List Addend} (h : (ofRows rows).overflow = false) :
    fitsWord (ofRows rows).int = true := by
  rw [int_ofRows rows h]
  by_contra hfits
  have hoverflow := (overflow_ofRows rows).mpr ⟨_, List.prefix_rfl, by simpa using hfits⟩
  rw [h] at hoverflow
  cases hoverflow

namespace Bank

variable {b : Bank} {i : Nat} {c : Cell}

theorem valueKind_unindexed (hcell : b.cellAt i = c) (hb : b.indexed = false) : valueKind i b = .ok c.flags.kind b :=
  (bind_of_ok (flags_unindexed hb i)).trans (by rw [hcell]; rfl)

theorem value_of_int (hcell : b.cellAt i = c) (hb : b.indexed = false) {n : Int} (hn : fitsWord n = true)
    (hflags : c.flags = .onlyInt) (hc : c.payload = intToWord n) : value i b = .ok (.int n) b := by
  have hmark : (b.cellAt i).flags.int = true := by rw [hcell, hflags]; rfl
  have hint : (b.cellAt i).intValue = n := by
    rw [Cell.intValue, if_pos hmark, hcell, Content.int, hc, wordToInt_intToWord_of_fits hn]
  rw [value, bind_of_ok (valueKind_unindexed hcell hb), hflags]
  refine (bind_of_ok (intValue_unindexed hb hmark)).trans ?_
  rw [hint]
  rfl

theorem value_of_real (hcell : b.cellAt i = c) (hb : b.indexed = false) {x : Double} (hflags : c.flags = .onlyReal)
    (hc : c.payload = x.bits) : value i b = .ok (.real x) b := by
  obtain ⟨y, hreal, hy⟩ := realValue_unindexed hb i
  have hx : (b.cellAt i).realValue = x := by
    rw [Cell.realValue, hcell, hflags]
    show Double.mk c.payload = x
    rw [hc]
  rw [value, bind_of_ok (valueKind_unindexed hcell hb), hflags]
  refine (bind_of_ok hreal).trans ?_
  rw [hy, hx]
  rfl

theorem value_of_null (hcell : b.cellAt i = c) (hb : b.indexed = false) (hkind : c.flags.kind = .null) :
    value i b = .ok .null b := by
  rw [value, bind_of_ok (valueKind_unindexed hcell hb), hkind]
  rfl

namespace Idle

theorem release_run (h : b.Idle) : release 0 b = .ok () b := by
  have hdynamic : isDynamic 0 b = .ok false b := (bind_of_ok (flags_unindexed h.indexed 0)).trans (by rw [h.result]; rfl)
  have hextern : releaseExtern 0 b = .ok () b := by
    rw [releaseExtern, bind_of_ok hdynamic]
    rfl
  rw [release, bind_of_ok hextern, bind_of_ok hdynamic, bind_of_ok (cell_run b 0), h.result]
  rfl

theorem lt_size (h : b.Idle) (c : Cell) : 0 < (b.withCell 0 c).cells.size := by
  rw [size_withCell, h.size]
  decide

theorem setInteger_run (h : b.Idle) {n : Int} (hn : fitsWord n = true) :
    ∃ b', (do setInteger 0 n; value 0 : BankM Value) b = .ok (.int n) b' := by
  let b₁ := b.withCell 0 ((b.cellAt 0).withFlags .onlyInt)
  have hset : setInteger 0 n false b = .ok () (b₁.withCell 0 ((b₁.cellAt 0).withPayload (intToWord n))) := by
    rw [setInteger, bind_of_ok (flags_unindexed h.indexed 0), h.result, if_pos (by decide), bind_of_ok h.release_run,
      bind_of_ok (setFlags_unindexed h.indexed 0 _)]
    exact setInt_unindexed (b := b₁) h.indexed 0 hn false
  have hflags : (b₁.cellAt 0).flags = .onlyInt := by rw [cellAt_withCell_self (by rw [h.size]; decide)]; rfl
  exact ⟨_, (bind_of_ok hset).trans (value_of_int (cellAt_withCell_self (h.lt_size _) _) h.indexed hn hflags rfl)⟩

theorem setDouble_run (h : b.Idle) (x : Double) :
    ∃ b', (do setDouble 0 (.real x); value 0 : BankM Value) b = .ok (.ofDouble x) b' := by
  have hflags := flags_unindexed h.indexed 0
  have hsize : 0 < b.cells.size := by rw [h.size]; decide
  rw [h.result] at hflags
  rw [Value.ofDouble]
  cases hnan : x.isNaN with
  | true =>
    have hset : setDouble 0 (.real x) b =
        .ok () (b.withCell 0 ((b.cellAt 0).withFlags (Flags.onlyNull.retype .onlyNull))) := by
      have hnumber : (Number.real x).isNaN = true := hnan
      rw [setDouble, if_pos hnumber, setNull, bind_of_ok hflags, bind_of_ok hflags]
      exact (bind_of_ok hflags).trans (setFlags_unindexed h.indexed 0 _)
    exact ⟨_, (bind_of_ok hset).trans (value_of_null (cellAt_withCell_self hsize _) h.indexed rfl)⟩
  | false =>
    let b₁ := b.withCell 0 ((b.cellAt 0).withFlags .onlyReal)
    have hset : setDouble 0 (.real x) b = .ok () (b₁.withCell 0 ((b₁.cellAt 0).withPayload x.bits)) := by
      rw [setDouble, if_neg (by simp [Number.isNaN, hnan]), bind_of_ok hflags, if_pos (by decide), bind_of_ok h.release_run,
        bind_of_ok (setFlags_unindexed h.indexed 0 _)]
      exact setReal_unindexed (b := b₁) h.indexed 0 (.real x) false
    have hreal : (b₁.cellAt 0).flags = .onlyReal := by rw [cellAt_withCell_self hsize]; rfl
    exact ⟨_, (bind_of_ok hset).trans (value_of_real (cellAt_withCell_self (h.lt_size _) _) h.indexed hreal rfl)⟩

end Idle

end Bank

namespace Aggregate

open Bank

variable {a : Aggregate} {b : Bank}

/-- Reads a row of at most one value, which is put into register 1. -/
def readRow (a : Aggregate) : Option Cell → BankM a.Row
  | none => a.read []
  | some c => do
    setCell 1 c
    a.read [1]

/-- Adds a row to the context, which starts with the first one. -/
def addRow (a : Aggregate) (ctx : Option Context) (row : Option Cell) : BankM (Option Context) := do
  match row with
  | none => return some (← (ctx.getD (.start a)).step [])
  | some c =>
    setCell 1 c
    return some (← (ctx.getD (.start a)).step [1])

theorem addRow_eq {ctx : Option Context} (h : (ctx.getD (.start a)).aggregate? = some a) (row : Option Cell) :
    a.addRow ctx row = (do return some (a.add (ctx.getD (.start a)) (← a.readRow row))) := by
  cases row with
  | none => simp only [addRow, readRow, Context.step_eq h, bind_assoc, pure_bind]
  | some c => simp only [addRow, readRow, Context.step_eq h, bind_assoc, pure_bind]

/-- A row that gives `x`, whatever was read before. -/
def Gives (a : Aggregate) (row : Option Cell) (x : a.Row) : Prop :=
  ∀ b : Bank, b.Idle → ∃ b', a.readRow row b = .ok x b' ∧ b'.Idle

theorem foldlM_addRow {rows : List (Option Cell)} {xs : List a.Row} (h : List.Forall₂ a.Gives rows xs) (hb : b.Idle)
    (ctx : Option Context) (hctx : (ctx.getD (.start a)).aggregate? = some a) :
    ∃ ctx' b', rows.foldlM a.addRow ctx b = .ok ctx' b' ∧ b'.Idle ∧
      ctx'.getD (.start a) = xs.foldl a.add (ctx.getD (.start a)) := by
  induction h generalizing b ctx with
  | nil => exact ⟨ctx, b, rfl, hb, rfl⟩
  | cons hrow _ ih =>
    obtain ⟨b₁, hread, hb₁⟩ := hrow b hb
    have hadd := (congrFun (addRow_eq hctx _) b).trans (bind_of_ok hread)
    have hnext := Context.aggregate?_add hctx
    obtain ⟨ctx', b', hrun, hb', hctx'⟩ := ih hb₁ (some _) (hnext _)
    refine ⟨ctx', b', ?_, hb', hctx'⟩
    rw [List.foldlM_cons, bind_of_ok hadd]
    exact hrun

/-- What a run ends with, or what is said about its failure. -/
def answer {σ α : Type} : EStateM.Result Fault σ α → Except Bytes α
  | .ok v _ => .ok v
  | .error e _ => .error (Bytes.ofString e.message)

theorem resultOf_eq_answer (a : Aggregate) (rows : List (Option Cell)) :
    a.resultOf rows = answer ((do let ctx ← rows.foldlM a.addRow none; a.finalize ctx 0; value 0 : BankM Value)
      (Bank.ofCells #[.null, .null] true false 0)) := by
  rw [resultOf, Workload.fold]
  dsimp only
  split
  · rename_i v b h
    have hrun : (do let ctx ← rows.foldlM a.addRow none; a.finalize ctx 0; value 0 : BankM Value) _ = .ok v b := h
    rw [hrun]
    rfl
  · rename_i e b h
    have hrun : (do let ctx ← rows.foldlM a.addRow none; a.finalize ctx 0; value 0 : BankM Value) _ = .error e b := h
    rw [hrun]
    rfl

theorem resultOf_of_gives {rows : List (Option Cell)} {xs : List a.Row} (h : List.Forall₂ a.Gives rows xs) :
    ∃ b : Bank, b.Idle ∧ a.resultOf rows = answer ((do a.finalize (some (a.gather xs)) 0; value 0 : BankM Value) b) := by
  obtain ⟨ctx, b, hrun, hb, hctx⟩ := foldlM_addRow h idle_ofCells none (Context.aggregate?_start a)
  refine ⟨b, hb, ?_⟩
  rw [resultOf_eq_answer, bind_of_ok hrun, finalize_getD, hctx]
  rfl

theorem answer_of_ok {α : Type} {x : BankM α} {v : α} {b' : Bank} (h : x b = .ok v b') : answer (x b) = .ok v := by
  rw [h]
  rfl

theorem sum_finish (h : b.Idle) (rows : List Addend) :
    answer ((do sum.finalize (some (sum.gather rows)) 0; value 0 : BankM Value) b) =
      (Fold.sum.outcome (some (.sum (.ofRows rows)))).result := by
  rw [gather_sum, finalize, Fold.outcome]
  split
  · exact answer_of_ok (value_of_null h.result h.indexed rfl)
  · cases hoverflow : (RunningSum.ofRows rows).overflow with
    | true => rfl
    | false =>
      cases (RunningSum.ofRows rows).approx with
      | true =>
        obtain ⟨b', hrun⟩ := h.setDouble_run (RunningSum.ofRows rows).real
        exact answer_of_ok hrun
      | false =>
        obtain ⟨b', hrun⟩ := h.setInteger_run (RunningSum.fitsWord_int_ofRows hoverflow)
        exact answer_of_ok hrun

theorem avg_finish (h : b.Idle) (rows : List Addend) :
    answer ((do avg.finalize (some (avg.gather rows)) 0; value 0 : BankM Value) b) =
      (Fold.avg.outcome (some (.sum (.ofRows rows)))).result := by
  rw [gather_avg, finalize, Fold.outcome]
  split
  · exact answer_of_ok (value_of_null h.result h.indexed rfl)
  · obtain ⟨b', hrun⟩ := h.setDouble_run (RunningSum.ofRows rows).mean
    exact answer_of_ok hrun

theorem count_finish (h : b.Idle) {rows : List Bool} (hrows : fitsWord (rows.count true : Int) = true) :
    answer ((do count.finalize (some (count.gather rows)) 0; value 0 : BankM Value) b) = .ok (.int (rows.count true)) := by
  obtain ⟨b', hrun⟩ := h.setInteger_run hrows
  rw [gather_count]
  exact answer_of_ok hrun

theorem readAddend_gives {c : Cell} {x : Addend} (h : c.zeroed.addend? = some x) (hb : b.Idle) :
    ∃ b', (do setCell 1 c; readAddend [1] : BankM Addend) b = .ok x b' ∧ b'.Idle := by
  obtain ⟨y, b', hrun, hy, hb'⟩ := (hb.withCell c).readAddend_run
  rw [cellAt_withCell_self (by rw [hb.size]; decide), h, Option.some.injEq] at hy
  exact ⟨b', hy ▸ (bind_of_ok (setCell_run b 1 c)).trans hrun, hb'⟩

theorem exists_addend (c : Cell) : ∃ x, c.zeroed.addend? = some x := by
  obtain ⟨x, -, -, hx, -⟩ := (idle_ofCells.withCell c).readAddend_run
  exact ⟨x, hx⟩

theorem forall₂_addends {P : Option Cell → Addend → Prop} (hP : ∀ c x, c.zeroed.addend? = some x → P (some c) x)
    (cells : List Cell) : List.Forall₂ P (cells.map some) ((cells.map Cell.zeroed).filterMap Cell.addend?) := by
  induction cells with
  | nil => exact .nil
  | cons c cells ih =>
    obtain ⟨x, hx⟩ := exists_addend c
    rw [List.map_cons, List.map_cons, List.filterMap_cons_some hx]
    exact .cons (hP c x hx) ih

theorem resultOf_sum (cells : List Cell) : sum.resultOf (cells.map some) =
    (Fold.sum.outcome (some (.sum (.ofRows ((cells.map Cell.zeroed).filterMap Cell.addend?))))).result := by
  obtain ⟨b, hb, hrun⟩ := resultOf_of_gives (a := sum) (forall₂_addends (fun c x hx b hb => readAddend_gives hx hb) cells)
  exact hrun.trans (sum_finish hb _)

theorem resultOf_avg (cells : List Cell) : avg.resultOf (cells.map some) =
    (Fold.avg.outcome (some (.sum (.ofRows ((cells.map Cell.zeroed).filterMap Cell.addend?))))).result := by
  obtain ⟨b, hb, hrun⟩ := resultOf_of_gives (a := avg) (forall₂_addends (fun c x hx b hb => readAddend_gives hx hb) cells)
  exact hrun.trans (avg_finish hb _)

/-- Whether a row counts: it has a value, or there is nothing to look at. -/
def counts (row : Option Cell) : Bool := row.all Cell.hasValue

theorem count_gives (row : Option Cell) : count.Gives row (counts row) := by
  intro b hb
  cases row with
  | none => exact ⟨b, rfl, hb⟩
  | some c =>
    have hb₁ := hb.withCell c
    have hkind := valueKind_unindexed (cellAt_withCell_self (by rw [hb.size]; decide) c) hb₁.indexed
    exact ⟨b.withCell 1 c, (bind_of_ok (setCell_run b 1 c)).trans (bind_of_ok hkind), hb₁⟩

theorem fitsWord_countP {rows : List (Option Cell)} (hrows : (rows.length : Int) ≤ maxWord) :
    fitsWord (rows.countP counts : Int) = true := by
  have hle := List.countP_le_length (p := counts) (l := rows)
  rw [fitsWord, Bool.and_eq_true, decide_eq_true_eq, decide_eq_true_eq]
  exact ⟨(by decide : minWord ≤ 0).trans (Int.natCast_nonneg _), (Int.ofNat_le.mpr hle).trans hrows⟩

theorem resultOf_count {rows : List (Option Cell)} (hrows : (rows.length : Int) ≤ maxWord) :
    count.resultOf rows = .ok (.int (rows.countP counts)) := by
  have hgives : List.Forall₂ count.Gives rows (rows.map counts) := by
    rw [List.forall₂_map_right_iff]
    exact List.forall₂_same.mpr fun row _ => count_gives row
  have hcount : (rows.map counts).count true = rows.countP counts := by
    rw [List.count, List.countP_map]
    exact List.countP_congr fun row _ => by simp
  obtain ⟨b, hb, hrun⟩ := resultOf_of_gives hgives
  rw [hrun, count_finish hb (by rw [hcount]; exact fitsWord_countP hrows), hcount]

end Aggregate

namespace Fold

open Bank

variable {f : Fold} {a : Accumulator} {b : Bank}

/-- The aggregate in register 0 has gathered `a`; before the first row there is only room for it. -/
structure Holds (f : Fold) (a : Accumulator) (b : Bank) : Prop where
  indexed : b.indexed = false
  size : b.cells.size = 2
  kept : (b.cellAt 0).flags.agg = true ∧ (b.cellAt 0).attachment = .accumulator a ∨
    (b.cellAt 0).flags.agg = false ∧ (b.cellAt 0).own = none ∧ a = f.start

theorem holds_start (f : Fold) : f.Holds f.start (ofCells #[.null, .null] true false 0) := ⟨rfl, rfl, .inr ⟨rfl, rfl, rfl⟩⟩

theorem Holds.lt_size (h : f.Holds a b) : 0 < b.cells.size := by
  rw [h.size]
  decide

theorem Holds.withCell (h : f.Holds a b) (c : Cell) : f.Holds a (b.withCell 1 c) := by
  have hcell : (b.withCell 1 c).cellAt 0 = b.cellAt 0 := by
    rw [cellAt_withCell (by rw [h.size]; decide), if_neg (by decide)]
  refine ⟨h.indexed, by rw [size_withCell, h.size], ?_⟩
  rw [hcell]
  exact h.kept

/-- The register after it has been opened for one more row. -/
def opened (f : Fold) (b : Bank) : Bank :=
  let b₁ := b.withCell 0 { b.cellAt 0 with size := (b.cellAt 0).size + 1 }
  b₁.renewed.put 0 (f.openCell b₁.fresh (b₁.cellAt 0))

theorem openCell_cases (f : Fold) (name : Nat) (c : Cell) (hagg : c.flags.agg = true ∨ c.own = none) :
    (f.openCell name c).overwrites c = false ∧ (f.openCell name c).flags.agg = true ∧
      (f.openCell name c).attachment = if c.flags.agg then c.attachment else .accumulator f.start := by
  rw [openCell]
  cases hopen : c.flags.agg with
  | true => exact ⟨by simp [Cell.overwrites], hopen, rfl⟩
  | false =>
    have hown : c.own = none := hagg.resolve_left (by simp [hopen])
    refine ⟨?_, rfl, rfl⟩
    rw [Cell.overwrites, hown]
    simp only [Bool.false_eq_true, if_false]
    cases (c.clearAndResize name f.room).own <;> rfl

theorem kept?_eq {c : Cell} (hagg : c.flags.agg = true) (hattached : c.attachment = .accumulator a) : kept? c = some a := by
  rw [kept?, hagg, hattached]

theorem Holds.opened (h : f.Holds a b) :
    f.Holds a (f.opened b) ∧ kept? ((f.opened b).cellAt 0) = some a ∧ (f.opened b).cellAt 1 = b.cellAt 1 := by
  let c : Cell := { b.cellAt 0 with size := (b.cellAt 0).size + 1 }
  let b₁ := (b.withCell 0 c).renewed
  have hsize : b₁.cells.size = 2 := (size_withCell b 0 c).trans h.size
  have hfirst : b₁.cellAt 0 = c := cellAt_withCell_self h.lt_size c
  obtain ⟨hkeeps, hagg, hattached⟩ := f.openCell_cases b.fresh c (h.kept.imp (·.1) (·.2.1))
  have hopened : f.opened b = b₁.withCell 0 (f.openCell b.fresh c) := by
    have hput : f.opened b = b₁.put 0 (f.openCell b.fresh (b₁.cellAt 0)) := rfl
    rw [hput, hfirst, put, hfirst, hkeeps]
    rfl
  have hcell : (f.opened b).cellAt 0 = f.openCell b.fresh c := by
    rw [hopened, cellAt_withCell_self (by rw [hsize]; decide)]
  have hother : (f.opened b).cellAt 1 = b.cellAt 1 := by
    rw [hopened, cellAt_withCell (by rw [hsize]; decide), if_neg (by decide)]
    exact (cellAt_withCell h.lt_size 1 c).trans (if_neg (by decide))
  have hkept : (f.openCell b.fresh c).attachment = .accumulator a := by
    rw [hattached]
    obtain ⟨hagg, ha⟩ | ⟨hagg, -, rfl⟩ := h.kept
    · rw [if_pos hagg]
      exact ha
    · rw [if_neg (Bool.eq_false_iff.mp hagg)]
  refine ⟨⟨?_, ?_, .inl ?_⟩, ?_, hother⟩
  · rw [hopened]
    exact h.indexed
  · rw [hopened, size_withCell, hsize]
  · rw [hcell]
    exact ⟨hagg, hkept⟩
  · rw [hcell]
    exact kept?_eq hagg hkept

theorem Holds.keep_run (h : f.Holds a b) (hkept : kept? (b.cellAt 0) = some a) (a' : Accumulator) :
    ∃ b', keep 0 a' b = .ok () b' ∧ f.Holds a' b' := by
  refine ⟨_, modifyCell_run b 0 _, h.indexed, by rw [size_withCell, h.size], .inl ?_⟩
  rw [cellAt_withCell_self h.lt_size]
  refine ⟨?_, rfl⟩
  rw [kept?] at hkept
  split at hkept
  · assumption
  · cases hkept

theorem Holds.addTo_run (h : f.Holds a b) (s : RunningSum) :
    ∃ b', addTo s 1 b = .ok ((b.cellAt 1).addend?.elim s s.add) b' ∧ f.Holds a b' ∧ b'.cellAt 0 = b.cellAt 0 := by
  rw [addTo, bind_of_ok (cell_run b 1), Cell.addend?]
  generalize (b.cellAt 1).numericKind = r
  obtain ⟨kind, d⟩ := r
  refine ⟨b.withCell 1 d, (bind_of_ok (setCell_run b 1 d)).trans ?_, h.withCell d, ?_⟩
  · cases kind <;> rfl
  · rw [cellAt_withCell (by rw [h.size]; decide), if_neg (by decide)]

theorem addRow_count {n : Nat} (h : count.Holds (.count n) b) (row : Option Cell) :
    ∃ b', count.addRow row b = .ok () b' ∧ count.Holds (.count (if Aggregate.counts row then n + 1 else n)) b' := by
  cases row with
  | none =>
    obtain ⟨hopened, hkept, -⟩ := h.opened
    obtain ⟨b', hkeep, hb'⟩ := hopened.keep_run hkept (.count (n + 1))
    refine ⟨b', discard_of_ok (a := false) ?_, hb'⟩
    refine (bind_of_ok (modifyCell_run b 0 _)).trans ((bind_of_ok (modifyCellWith_run _ 0 _)).trans
      ((bind_of_ok (cell_run (count.opened b) 0)).trans ?_))
    rw [hkept]
    exact bind_of_ok hkeep
  | some c =>
    let b₁ := b.withCell 1 c
    have h₁ : count.Holds (.count n) b₁ := h.withCell c
    obtain ⟨hopened, hkept, harg⟩ := h₁.opened
    have hc : b₁.cellAt 1 = c := cellAt_withCell_self (by rw [h.size]; decide) c
    have hkind : Argument.kind 1 (count.opened b₁) = .ok c.flags.kind (count.opened b₁) := by
      refine (bind_of_ok (cell_run (count.opened b₁) 1)).trans ?_
      rw [harg, hc]
      rfl
    obtain ⟨b', hkeep, hb'⟩ := hopened.keep_run hkept (.count (if c.flags.kind = .null then n else n + 1))
    refine ⟨b', (bind_of_ok (setCell_run b 1 c)).trans (discard_of_ok (a := false) ?_), ?_⟩
    · refine (bind_of_ok (modifyCell_run b₁ 0 _)).trans ((bind_of_ok (modifyCellWith_run _ 0 _)).trans
        ((bind_of_ok (cell_run (count.opened b₁) 0)).trans ?_))
      rw [hkept]
      exact (bind_of_ok hkind).trans (bind_of_ok hkeep)
    · have hcounts : (if Aggregate.counts (some c) = true then n + 1 else n) = if c.flags.kind = .null then n else n + 1 := by
        by_cases hnull : c.flags.kind = .null <;> simp [Aggregate.counts, Cell.hasValue, hnull]
      rw [hcounts]
      exact hb'

theorem addRow_sum {s : RunningSum} (hf : f = .sum ∨ f = .avg) (h : f.Holds (.sum s) b) (c : Cell) :
    ∃ b', f.addRow (some c) b = .ok () b' ∧ f.Holds (.sum (c.addend?.elim s s.add)) b' := by
  let b₁ := b.withCell 1 c
  have h₁ : f.Holds (.sum s) b₁ := h.withCell c
  obtain ⟨hopened, hkept, harg⟩ := h₁.opened
  have hc : b₁.cellAt 1 = c := cellAt_withCell_self (by rw [h.size]; decide) c
  obtain ⟨b₂, hadd, h₂, hresult⟩ := hopened.addTo_run s
  rw [harg, hc] at hadd
  obtain ⟨b', hkeep, hb'⟩ := h₂.keep_run (hresult ▸ hkept) (.sum (c.addend?.elim s s.add))
  refine ⟨b', (bind_of_ok (setCell_run b 1 c)).trans (discard_of_ok (a := false) ?_), hb'⟩
  obtain rfl | rfl := hf <;>
    refine (bind_of_ok (modifyCell_run b₁ 0 _)).trans ((bind_of_ok (modifyCellWith_run _ 0 _)).trans
      ((bind_of_ok (cell_run (opened _ b₁) 0)).trans ?_)) <;>
    rw [hkept] <;>
    exact (bind_of_ok hadd).trans (bind_of_ok hkeep)

theorem forM_addRow_count (rows : List (Option Cell)) {n : Nat} (h : count.Holds (.count n) b) :
    ∃ b', rows.forM count.addRow b = .ok ⟨⟩ b' ∧ count.Holds (.count (n + rows.countP Aggregate.counts)) b' := by
  induction rows generalizing b n with
  | nil => exact ⟨b, rfl, h⟩
  | cons row rows ih =>
    obtain ⟨b₁, hrow, h₁⟩ := addRow_count h row
    obtain ⟨b', hrun, h'⟩ := ih h₁
    refine ⟨b', (bind_of_ok hrow).trans hrun, ?_⟩
    have hn : n + (row :: rows).countP Aggregate.counts =
        (if Aggregate.counts row then n + 1 else n) + rows.countP Aggregate.counts := by
      rw [List.countP_cons]
      split <;> omega
    rw [hn]
    exact h'

theorem forM_addRow_sum (hf : f = .sum ∨ f = .avg) (cells : List Cell) {s : RunningSum} (h : f.Holds (.sum s) b) :
    ∃ b', (cells.map some).forM f.addRow b = .ok ⟨⟩ b' ∧
      f.Holds (.sum ((cells.filterMap Cell.addend?).foldl RunningSum.add s)) b' := by
  induction cells generalizing b s with
  | nil => exact ⟨b, rfl, h⟩
  | cons c cells ih =>
    obtain ⟨b₁, hrow, h₁⟩ := addRow_sum hf h c
    obtain ⟨b', hrun, h'⟩ := ih h₁
    refine ⟨b', (bind_of_ok hrow).trans hrun, ?_⟩
    cases hc : c.addend? with
    | none =>
      rw [hc] at h'
      rwa [List.filterMap_cons_none hc]
    | some x =>
      rw [hc] at h'
      rwa [List.filterMap_cons_some hc]

theorem Holds.outcome_eq (hf : f.outcome none = f.outcome (some f.start)) (h : f.Holds a b) :
    f.outcome (kept? (b.cellAt 0)) = f.outcome (some a) := by
  obtain ⟨hagg, hattached⟩ | ⟨hagg, -, rfl⟩ := h.kept
  · rw [kept?_eq hagg hattached]
  · rw [← hf, kept?, hagg]

theorem Holds.deliver_run (h : f.Holds a b) {o : Outcome} (ho : o.Numeric) : ∃ b', deliver o b = .ok o.result b' := by
  have hcell (c : Cell) : (b.renewed.withCell 0 c).cellAt 0 = c := cellAt_withCell_self h.lt_size c
  have hrun {v : Value} {c : Cell} (hv : value 0 (b.renewed.withCell 0 c) = .ok v (b.renewed.withCell 0 c)) :
      (do
        let _ ← freshName
        setCell 0 c
        return .ok (← value 0) : BankM (Except Bytes Value)) b = .ok (.ok v) (b.renewed.withCell 0 c) :=
    (bind_of_ok (freshName_run b)).trans ((bind_of_ok (setCell_run _ 0 c)).trans (bind_of_ok hv))
  cases ho with
  | nothing => exact ⟨_, hrun (value_of_null (hcell _) h.indexed rfl)⟩
  | int hn => exact ⟨_, hrun (value_of_int (hcell _) h.indexed hn rfl rfl)⟩
  | real x =>
    refine ⟨_, hrun (v := .ofDouble x) (c := (Outcome.real x).write b.fresh { flags := .onlyNull }) ?_⟩
    rw [Outcome.write, Cell.setReal, Value.ofDouble]
    cases x.isNaN with
    | true => exact value_of_null (hcell _) h.indexed rfl
    | false => exact value_of_real (hcell _) h.indexed rfl rfl
  | error code message => exact ⟨_, rfl⟩

theorem resultOf_eq {rows : List (Option Cell)} (hrun : rows.forM f.addRow (ofCells #[.null, .null] true false 0) = .ok ⟨⟩ b)
    (hb : f.Holds a b) (hf : f.outcome none = f.outcome (some f.start)) (ho : (f.outcome (some a)).Numeric) :
    f.resultOf rows = (f.outcome (some a)).result := by
  obtain ⟨b', hdeliver⟩ := hb.deliver_run ho
  have hfinish : f.finish b = .ok (f.outcome (some a)).result b' := by
    rw [finish, bind_of_ok (cell_run b 0), hb.outcome_eq hf, hdeliver]
  have hall := (bind_of_ok (f := fun _ => f.finish) hrun).trans hfinish
  rw [resultOf, hall]

theorem resultOf_count {rows : List (Option Cell)} (hrows : (rows.length : Int) ≤ maxWord) :
    count.resultOf rows = .ok (.int (rows.countP Aggregate.counts)) := by
  obtain ⟨b, hrun, hb⟩ := forM_addRow_count rows (holds_start .count)
  rw [Nat.zero_add] at hb
  exact resultOf_eq hrun hb rfl (.int (Aggregate.fitsWord_countP hrows))

theorem numeric_outcome (hf : f = .sum ∨ f = .avg) (rows : List Addend) :
    (f.outcome (some (.sum (.ofRows rows)))).Numeric := by
  obtain rfl | rfl := hf
  · rw [outcome]
    split
    · exact .nothing
    cases hoverflow : (RunningSum.ofRows rows).overflow with
    | true => exact .error _ _
    | false =>
      cases (RunningSum.ofRows rows).approx with
      | true => exact .real _
      | false => exact .int (RunningSum.fitsWord_int_ofRows hoverflow)
  · rw [outcome]
    split
    · exact .nothing
    · exact .real _

theorem resultOf_sum (hf : f = .sum ∨ f = .avg) (cells : List Cell) : f.resultOf (cells.map some) =
    (f.outcome (some (.sum (.ofRows (cells.filterMap Cell.addend?))))).result := by
  have hstart : f.start = .sum {} ∧ f.outcome none = f.outcome (some f.start) := by obtain rfl | rfl := hf <;> exact ⟨rfl, rfl⟩
  obtain ⟨b, hrun, hb⟩ := forM_addRow_sum hf cells (hstart.1 ▸ holds_start f)
  exact resultOf_eq hrun hb hstart.2 (numeric_outcome hf _)

end Fold

theorem map_zeroed_of_values {cells : List Cell} (h : ∀ c ∈ cells, c.hasValue = true) : cells.map Cell.zeroed = cells := by
  refine (List.map_congr_left fun c hc => Cell.zeroed_of_value ?_).trans (List.map_id cells)
  simpa [Cell.hasValue] using h c hc

theorem filterMap_addend?_filter (cells : List Cell) :
    (cells.filter Cell.hasValue).filterMap Cell.addend? = cells.filterMap Cell.addend? := by
  rw [List.filterMap_filter]
  refine List.filterMap_congr fun c _ => ?_
  split
  · rfl
  · rename_i hnull
    exact (Cell.addend?_of_null (by simpa [Cell.hasValue] using hnull)).symm

/-- An aggregate with a context and one in place count the same rows. A sum or a mean with a context is the one in place of the
same values in which zero stands for every row without a value; so they agree on rows that all have one. In place such rows
change nothing, and without others there is no result. -/
theorem contexts_take_null_for_zero (rows : List (Option Cell)) (hrows : (rows.length : Int) ≤ maxWord) (cells : List Cell) :
    (Aggregate.count.resultOf rows = Fold.count.resultOf rows ∧
      Fold.count.resultOf (rows.filter Aggregate.counts) = Fold.count.resultOf rows) ∧
    (Aggregate.sum.resultOf (cells.map some) = Fold.sum.resultOf ((cells.map Cell.zeroed).map some) ∧
      Aggregate.avg.resultOf (cells.map some) = Fold.avg.resultOf ((cells.map Cell.zeroed).map some)) ∧
    ((∀ c ∈ cells, c.hasValue = true) → Aggregate.sum.resultOf (cells.map some) = Fold.sum.resultOf (cells.map some) ∧
      Aggregate.avg.resultOf (cells.map some) = Fold.avg.resultOf (cells.map some)) ∧
    (Fold.sum.resultOf ((cells.filter Cell.hasValue).map some) = Fold.sum.resultOf (cells.map some) ∧
      Fold.avg.resultOf ((cells.filter Cell.hasValue).map some) = Fold.avg.resultOf (cells.map some)) ∧
    ((∀ c ∈ cells, c.hasValue = false) → Fold.sum.resultOf (cells.map some) = .ok .null ∧
      Fold.avg.resultOf (cells.map some) = .ok .null) := by
  have hsum := Fold.resultOf_sum (.inl rfl)
  have havg := Fold.resultOf_sum (.inr rfl)
  have hzeroed : Aggregate.sum.resultOf (cells.map some) = Fold.sum.resultOf ((cells.map Cell.zeroed).map some) ∧
      Aggregate.avg.resultOf (cells.map some) = Fold.avg.resultOf ((cells.map Cell.zeroed).map some) := by
    rw [Aggregate.resultOf_sum, Aggregate.resultOf_avg, hsum, havg]
    exact ⟨rfl, rfl⟩
  refine ⟨⟨?_, ?_⟩, hzeroed, fun hvalues => ?_, ⟨?_, ?_⟩, fun hnone => ?_⟩
  · rw [Aggregate.resultOf_count hrows, Fold.resultOf_count hrows]
  · have hfewer : ((rows.filter Aggregate.counts).length : Int) ≤ maxWord :=
      (Int.ofNat_le.mpr (List.length_filter_le _ _)).trans hrows
    rw [Fold.resultOf_count hfewer, Fold.resultOf_count hrows, List.countP_filter]
    simp only [Bool.and_self]
  · rwa [map_zeroed_of_values hvalues] at hzeroed
  · rw [hsum, hsum, filterMap_addend?_filter]
  · rw [havg, havg, filterMap_addend?_filter]
  · have hempty : cells.filterMap Cell.addend? = [] := by
      rw [← filterMap_addend?_filter, List.filter_eq_nil_iff.mpr fun c hc => by simp [hnone c hc]]
      rfl
    rw [hsum, havg, hempty]
    exact ⟨rfl, rfl⟩

theorem contexts_take_null_for_zero_gap :
    Aggregate.sum.resultOf [some (.ofInt 1), some .null] = Fold.sum.resultOf [some (.ofInt 1), some (.ofReal .zero)] ∧
    Fold.sum.resultOf [some (.ofInt 1)] = Fold.sum.resultOf [some (.ofInt 1), some .null] := by
  obtain ⟨-, ⟨hsum, -⟩, -, ⟨hfilter, -⟩, -⟩ := contexts_take_null_for_zero [] (by decide) [.ofInt 1, .null]
  exact ⟨hsum, hfilter⟩

/-- One and nothing are one in place, and a double with a context. -/
theorem sum_of_gap_differs :
    Aggregate.sum.resultOf [some (.ofInt 1), some .null] = .ok (.real ⟨0x3FF0000000000000⟩) ∧
    Fold.sum.resultOf [some (.ofInt 1), some .null] = .ok (.int 1) ∧
    Aggregate.avg.resultOf [some (.ofInt 1), some .null] = .ok (.real ⟨0x3FE0000000000000⟩) ∧
    Fold.avg.resultOf [some (.ofInt 1), some .null] = .ok (.real ⟨0x3FF0000000000000⟩) ∧
    Aggregate.sum.resultOf [some .null] = .ok (.real .zero) ∧ Fold.sum.resultOf [some .null] = .ok .null := by
  decide +kernel

end QueryMachine
