import QueryMachine.Function.Context

/-!
Runs the aggregates over rows of numbers and reports their results.
-/

namespace QueryMachine.Workload

/-- Adds rows of at most one value to an aggregate and answers its result. -/
def fold (a : Aggregate) (rows : List (Option Cell)) : Except Fault Value :=
  let run : BankM Value := do
    let ctx ← rows.foldlM (fun (ctx : Option Context) row => do
      let ctx := ctx.getD (.start a)
      match row with
      | none => return some (← ctx.step [])
      | some c =>
        Bank.setCell 1 c
        return some (← ctx.step [1])) none
    a.finalize ctx 0
    Bank.value 0
  match run (Bank.ofCells #[.null, .null] true false 0) with
  | .ok v _ => .ok v
  | .error e _ => .error e

structure FoldReport where
  count : Value
  /-- The sums of integers and of halves. -/
  sums : Value × Value
  means : Value × Value
  /-- Why a sum that no integer holds is refused. -/
  refused : Option Fault
  /-- What sums and means are without rows. -/
  empty : Value × Value
  deriving Repr, DecidableEq, Inhabited

/-- Counts `n` values, of which every fifth is missing, and a row without values; sums and averages the
first `n` integers and their halves. -/
def foldReport (n : Nat) : Except Fault FoldReport := do
  let ints := (List.range n).map fun (i : Nat) => some (Cell.ofInt i)
  let halves := (List.range n).map fun (i : Nat) =>
    some (Cell.ofReal ((Double.ofInt i).div (.ofInt 2)))
  let gaps := (List.range n).map fun (i : Nat) =>
    some (if i % 5 = 0 then Cell.null else Cell.ofInt i)
  let refused := match fold .sum [some (.ofInt maxWord), some (.ofInt 1)] with
    | .ok _ => none
    | .error e => some e
  return {
    count := ← fold .count (gaps ++ [none])
    sums := (← fold .sum ints, ← fold .sum halves)
    means := (← fold .avg ints, ← fold .avg halves)
    refused
    empty := (← fold .sum [], ← fold .avg []) }

end QueryMachine.Workload
