/-!
Which of the instructions with two sets of rules go through the knowledge about registers. Each such
family is tracked or direct; some families have to agree.
-/

namespace QueryMachine

/-- The families of instructions that have tracked and direct rules. -/
inductive Family
  | arithmetic
  | aggFinal
  | aggStep
  | affinity
  | cast
  | collSeq
  | compare
  | copy
  | endCoroutine
  | function
  | gosub
  | goto
  | indexCompare
  | idxRowid
  | ifPos
  | ifZero
  | condition
  | initCoroutine
  | integer
  | isNull
  | jump
  | makeRecord
  | move
  | mustBeInt
  | comparison
  | next
  | nextIfOpen
  | notExists
  | notNull
  | null
  | once
  | openTable
  | real
  | realAffinity
  | resultRow
  | returnTo
  | sCopy
  | seek
  | seekOrdered
  | sequence
  | parameter
  | yield
  deriving Repr, DecidableEq, Inhabited

namespace Family

def name : Family → String
  | .arithmetic => "Add_Subtract_Multiply_Divide_Remainder"
  | .aggFinal => "AggFinal"
  | .aggStep => "AggStep"
  | .affinity => "Affinity"
  | .cast => "Cast"
  | .collSeq => "CollSeq"
  | .compare => "Compare"
  | .copy => "Copy"
  | .endCoroutine => "EndCoroutine"
  | .function => "Function"
  | .gosub => "Gosub"
  | .goto => "Goto"
  | .indexCompare => "IdxLE_IdxGT_IdxLT_IdxGE"
  | .idxRowid => "IdxRowid"
  | .ifPos => "IfPos"
  | .ifZero => "IfZero"
  | .condition => "If_IfNot"
  | .initCoroutine => "InitCoroutine"
  | .integer => "Integer"
  | .isNull => "IsNull"
  | .jump => "Jump"
  | .makeRecord => "MakeRecord"
  | .move => "Move"
  | .mustBeInt => "MustBeInt"
  | .comparison => "Ne_Eq_Gt_Le_Lt_Ge"
  | .next => "Next"
  | .nextIfOpen => "NextIfOpen"
  | .notExists => "NotExists"
  | .notNull => "NotNull"
  | .null => "Null"
  | .once => "Once"
  | .openTable => "OpenRead_OpenWrite"
  | .real => "Real"
  | .realAffinity => "RealAffinity"
  | .resultRow => "ResultRow"
  | .returnTo => "Return"
  | .sCopy => "SCopy"
  | .seek => "Seek"
  | .seekOrdered => "SeekLT_SeekLE_SeekGE_SeekGT"
  | .sequence => "Sequence"
  | .parameter => "Variable"
  | .yield => "Yield"

def all : List Family :=
  [.arithmetic, .aggFinal, .aggStep, .affinity, .cast, .collSeq, .compare, .copy, .endCoroutine,
    .function, .gosub, .goto, .indexCompare, .idxRowid, .ifPos, .ifZero, .condition,
    .initCoroutine, .integer, .isNull, .jump, .makeRecord, .move, .mustBeInt, .comparison, .next,
    .nextIfOpen, .notExists, .notNull, .null, .once, .openTable, .real, .realAffinity,
    .resultRow, .returnTo, .sCopy, .seek, .seekOrdered, .sequence, .parameter, .yield]

def ofName? (s : String) : Option Family := all.find? (·.name == s)

/-- The family that always changes together with this one. -/
def partner : Family → Family
  | .compare => .jump
  | .jump => .compare
  | .aggStep => .aggFinal
  | .aggFinal => .aggStep
  | f => f

/-- Whether a family is tracked unless it is told otherwise. -/
def trackedByDefault : Family → Bool
  | .openTable | .cast => false
  | _ => true

end Family

structure Status where
  useFlagCache : Bool
  frozen : Bool := false
  tracked : Family → Bool := Family.trackedByDefault

namespace Status

inductive Lock
  | frozen
  | flagCache
  deriving Repr, DecidableEq, Inhabited

def Lock.message : Lock → String
  | .frozen => "too late to change"
  | .flagCache => "can't change if flag cache is used"

def lock? (s : Status) : Option Lock :=
  if s.frozen then some .frozen else if s.useFlagCache then some .flagCache else none

/-- Sets a family and its partner. -/
def assign (s : Status) (f : Family) (value : Bool) : Status :=
  { s with tracked := fun g => if g = f ∨ g = f.partner then value else s.tracked g }

/-- Sets the family with this name; a name without a family changes nothing. -/
def set (s : Status) (name : String) (value : Bool) : Except Lock Status :=
  match s.lock? with
  | some lock => .error lock
  | none => .ok (((Family.ofName? name).map (s.assign · value)).getD s)

def freeze (s : Status) : Status := { s with frozen := true }

/-- Makes every family direct, whether the status is locked or not. -/
def disableAll (s : Status) : Status := { s with tracked := fun _ => false }

/-- Makes the named families direct, one after the other, up to the first that is refused. -/
def disableNames : Status → List String → Status × Option Lock
  | s, [] => (s, none)
  | s, name :: rest =>
    if name.isEmpty then s.disableNames rest
    else match s.set name false with
      | .ok s => s.disableNames rest
      | .error lock => (s, some lock)

/-- Obeys a list of names with colons between them, or the word `all`. -/
def disable (s : Status) (spec : String) : Status × Option Lock :=
  if spec = "all" then (s.disableAll, none) else s.disableNames (spec.splitOn ":")

/-- The families that are direct. -/
def off (s : Status) : List Family := Family.all.filter fun f => !s.tracked f

end Status

end QueryMachine
