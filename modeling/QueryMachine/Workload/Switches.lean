import QueryMachine.Opcode.Status

/-!
Switches families of instructions over in many ways, and reports what the switches show afterwards.
-/

namespace QueryMachine.Workload

structure SwitchReport where
  /-- The switch of every family once all of them are direct. -/
  all : List Bool
  /-- For each switched family, whether it is direct. -/
  single : List Bool
  /-- For each list of families, whether all of them are direct. -/
  grouped : List Bool
  /-- Why a status that may not be changed was not. -/
  locks : List Status.Lock
  deriving Repr, DecidableEq, Inhabited

/-- The `n` families that are switched, in turn. -/
def switched (n : Nat) : List Family :=
  (List.range n).map fun i => Family.all.getD (i % Family.all.length) .goto

/-- The list cut into pieces of four. -/
def fours {α : Type} : List α → List (List α)
  | [] => []
  | [a] => [[a]]
  | [a, b] => [[a, b]]
  | [a, b, c] => [[a, b, c]]
  | a :: b :: c :: d :: rest => [a, b, c, d] :: fours rest

/-- Whether a list of families is direct after it was switched over by name. -/
def becomeDirect (fs : List Family) : Bool :=
  let (s, _) := ({ useFlagCache := false } : Status).disable (":".intercalate (fs.map (·.name)))
  fs.all fun f => !s.tracked f

def refusal (s : Status) : List Status.Lock :=
  match s.set Family.goto.name false with
  | .ok _ => []
  | .error lock => [lock]

def switchReport (n : Nat) : SwitchReport :=
  let fresh : Status := { useFlagCache := false }
  { all := Family.all.map fresh.disableAll.tracked
    single := (switched n).map fun f => becomeDirect [f]
    grouped := (fours (switched n)).map becomeDirect
    locks := refusal { useFlagCache := true } ++ refusal fresh.freeze }

end QueryMachine.Workload
