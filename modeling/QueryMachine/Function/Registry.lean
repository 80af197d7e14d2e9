import QueryMachine.Function.Context

/-!
The functions that a machine knows. Registered functions are found again by the number they were
given; every other function is a built-in one, known by name and number of arguments.
-/

namespace QueryMachine

inductive Func.Kind
  | general
  | builtin
  | scalar (s : Scalar)
  | aggregate (a : Aggregate)
  deriving Repr, DecidableEq, Inhabited

structure Func where
  /-- Tells functions apart that were made at different times. -/
  serial : Nat
  name : String
  arity : Int
  kind : Func.Kind
  deriving Repr, DecidableEq, Inhabited

inductive ContextKind
  | absent
  | plain
  | of (a : Aggregate)
  deriving Repr, DecidableEq, Inhabited

namespace Func

def contextKind (f : Func) : ContextKind :=
  match f.kind with
  | .general | .scalar _ => .absent
  | .aggregate a => .of a
  | .builtin =>
    if f.name = "count" then .of .count
    else if f.name = "sum" && f.arity = 1 then .of .sum
    else if f.name = "avg" && f.arity = 1 then .of .avg
    else .plain

/-- Whether the function counts as an aggregate over registers. -/
def isAggregate (f : Func) : Bool := f.contextKind != .plain

def isScalar (f : Func) : Bool :=
  match f.kind with
  | .scalar _ => true
  | _ => false

/-- The context to go on with: the one that is there, or a new one. -/
def openContext (f : Func) (ctx : Option Context) : BankM Context :=
  match ctx, f.contextKind with
  | some ctx, _ => pure ctx
  | none, .of a => pure (.start a)
  | none, .plain => pure .plain
  | none, .absent => throw (.wrongType "")

def finalize (f : Func) (ctx : Option Context) (out : Nat) : BankM Unit :=
  match f.contextKind with
  | .of a => a.finalize ctx out
  | _ => throw .absent

def call (f : Func) (args : List Nat) (out : Nat) : BankM Unit :=
  match f.kind with
  | .scalar s => s.call f.name f.arity args out
  | _ => throw (.notProvided "abstract base class")

end Func

/-- A function as a program refers to it: three entry points, which are one for registered
functions, and the number it was registered with. -/
structure FuncRef where
  step : Int
  final : Int
  func : Int
  user : Int
  arity : Int
  name : String
  deriving Repr, DecidableEq, Inhabited

structure Registry where
  keys : List (String × Int) := []
  /-- The registered functions, from number one on. -/
  funcs : List (Option Func) := [none]
  made : Nat := 0
  deriving Repr, DecidableEq, Inhabited

namespace Registry

/-- A function that is not registered. -/
def make (r : Registry) (name : String) (arity : Int) (kind : Func.Kind) : Func × Registry :=
  (⟨r.made, name, arity, kind⟩, { r with made := r.made + 1 })

/-- Registers a function and gives it a number; a name with a number of arguments is taken once. -/
def register (r : Registry) (name : String) (arity : Int) (kind : Func.Kind) :
    Except Fault (Nat × Func × Registry) :=
  if r.keys.contains (name, arity) then .error (.assertion "")
  else
    let (f, r) := r.make name arity kind
    let keys := r.keys ++ [(name, arity)]
    .ok (keys.length, f, { r with keys, funcs := r.funcs ++ [some f] })

/-- Registers a function that programs may call; the name and the number of arguments are limited. -/
def install (r : Registry) (name : String) (arity : Int) (kind : Func.Kind) :
    Except Fault (Func × Registry) := do
  let (_, f, r) ← r.register name arity kind
  if arity < -1 || 127 < arity || 255 < name.utf8ByteSize then .error (.assertion "")
  else return (f, r)

/-- How a program refers to the registered function with this number. -/
def refAt (index : Nat) (f : Func) : FuncRef :=
  let n : Int := if f.isScalar then 0 else 1
  { step := n, final := n, func := 1 - n, user := index, arity := f.arity, name := f.name }

/-- The registered function that a call means. A name in other letters is the same name, the last
registration counts, and the number of arguments is preferred to any number. -/
def resolve? (r : Registry) (name : String) (arity : Int) : Option FuncRef :=
  let same (n : Int) : Option FuncRef :=
    (r.funcs.zipIdx.reverse.findSome? fun (f?, i) =>
      match f? with
      | some f => if f.name.toLower = name.toLower && f.arity = n then some (refAt i f) else none
      | none => none)
  (same arity).or (same (-1))

def atIndex (r : Registry) (i : Int) : Except Fault (Option Func) :=
  match wrapIndex? r.funcs.length i with
  | some k => .ok (r.funcs.getD k none)
  | none => .error .outOfRange

def require (p : Bool) : Except Fault Unit := if p then .ok () else .error (.assertion "")

/-- The function that a program refers to. -/
def find (r : Registry) (ref : FuncRef) : Except Fault (Func × Registry) := do
  if ref.step = 1 then
    require (ref.final == 1)
    match ← r.atIndex ref.user with
    | some f =>
      match f.kind with
      | .aggregate _ => return (f, r)
      | _ => .error (.assertion "")
    | none => .error (.assertion "")
  else if ref.func = 1 then
    require (ref.step == 0)
    require (ref.final == 0)
    match ← r.atIndex ref.user with
    | some f => if f.isScalar then return (f, r) else .error (.assertion "")
    | none => .error (.assertion "")
  else return r.make ref.name ref.arity .builtin

end Registry

end QueryMachine
