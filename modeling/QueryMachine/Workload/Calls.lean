import QueryMachine.Function.Registry

/-!
Registers functions, finds them again the way programs do, and uses each of them once.
-/

namespace QueryMachine.Workload

/-- What is seen of one function. -/
inductive CallReport
  | scalar (known : Bool) (result : Int)
  | aggregate (known : Bool) (context : ContextKind) (count : Int)
  /-- A built-in function keeps its arguments in registers and is not called from here. -/
  | builtin (arity : Int) (args : List Nat) (context : ContextKind) (isAggregate isScalar : Bool)
      (refused : Bool)
  deriving Repr, DecidableEq, Inhabited

/-- The registers for the results and for up to four arguments. -/
def callBank : Bank :=
  Bank.ofCells #[.null, .ofInt 0, .ofInt 1, .ofInt 2, .ofInt 3] true false 0

def resultOf {α : Type} (x : BankM α) : Except Fault α :=
  match x callBank with
  | .ok a _ => .ok a
  | .error e _ => .error e

/-- Registers a function and finds it by its number. -/
def enter (r : Registry) (name : String) (arity : Int) (kind : Func.Kind) :
    Except Fault (Func × Registry) := do
  let (index, f, r) ← r.register name arity kind
  r.find (Registry.refAt index f)

def callScalar (f : Func) (arity : Nat) : Except Fault Int :=
  resultOf do
    f.call ((List.range arity).map (· + 1)) 0
    Bank.int 0

def countTwice (f : Func) : Except Fault Int :=
  resultOf do
    let ctx ← f.openContext none
    let ctx ← (← ctx.step []).step []
    f.finalize (some ctx) 0
    Bank.int 0

/-- A function that nobody registered. -/
def builtinRef (name : String) (arity : Int) : FuncRef :=
  { step := 0, final := 0, func := 0, user := 0, arity, name }

def isRefused {α : Type} : Except Fault α → Bool
  | .ok _ => false
  | .error _ => true

/-- Enters the function with number `i`. -/
def callOne (r : Registry) (i : Nat) : Except Fault ((String × CallReport) × Registry) := do
  let name := s!"fn_{i}"
  let arity := i % 4 + 1
  match i % 3 with
  | 0 =>
    let (f, r) ← enter r name arity (.scalar .addInts)
    return ((f.name, .scalar f.isScalar (← callScalar f arity)), r)
  | 1 =>
    let (f, r) ← enter r name arity (.aggregate .count)
    return ((f.name, .aggregate f.isAggregate f.contextKind (← countTwice f)), r)
  | _ =>
    let (f, r) ← r.find (builtinRef name arity)
    let refused := isRefused (resultOf (f.call [1, 2] 0))
    return ((f.name, .builtin f.arity [1, 2] f.contextKind f.isAggregate f.isScalar refused), r)

structure RegistryReport where
  calls : List (String × CallReport)
  /-- The contexts of built-in functions. -/
  contexts : List ContextKind
  /-- A context of a function that keeps nothing. -/
  opened : Context
  deriving Repr, DecidableEq, Inhabited

/-- Enters `n` functions, then looks at built-in ones. -/
def registryReport (n : Nat) : Except Fault RegistryReport := do
  let (calls, r) ← (List.range n).foldlM (fun (calls, r) i => do
    let (c, r) ← callOne r i
    return (calls ++ [c], r)) ([], ({} : Registry))
  let contexts ← ["count", "sum", "avg", "max"].mapM fun name => do
    return (← r.find (builtinRef name 1)).1.contextKind
  let (f, _) ← r.find (builtinRef "max" 1)
  return { calls, contexts, opened := ← resultOf (f.openContext none) }

end QueryMachine.Workload
