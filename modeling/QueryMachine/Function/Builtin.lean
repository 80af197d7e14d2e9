import QueryMachine.Calendar.Printer
import QueryMachine.Function.Formatted
import QueryMachine.Text.Hex
import QueryMachine.Text.Pattern
import QueryMachine.Text.Renamed

/-!
The built-in scalar functions, by name and number of arguments.
-/

namespace QueryMachine

/-- What functions may know beside their arguments. -/
structure Surroundings where
  collation : Option Collation := none
  /-- The moment of the call, in milliseconds. -/
  now : Int := 0
  lastRowid : Int := 0
  /-- How many rows the last statement changed, and how many all statements did. -/
  changes : Int := 0
  totalChanges : Int := 0
  draws : Nat → Nat := fun _ => 0

/-- How a moment is answered. -/
inductive MomentForm
  | days
  | date
  | time
  | both
  deriving Repr, DecidableEq, Inhabited

inductive Builtin
  | trim (left right : Bool)
  /-- The smallest or the greatest of several arguments. -/
  | extreme (greatest : Bool)
  | typeOf
  | length
  | position
  | slice
  | codePoint
  | ofCodePoints
  | abs
  | round
  | upper
  | lower
  | hex
  | nullIf
  | quote
  | replace
  | format
  | zeros
  | isMatch (s : Pattern.Style)
  /-- The version of the machine; functions that programs do not call answer it, too. -/
  | version
  | sourceId
  /-- Whether the machine was built with an option. -/
  | hasOption
  | optionAt
  /-- Reads a code and a message and drops them. -/
  | log
  /-- What a name stands for that has a meaning only in the search of full text. -/
  | unusable
  | random
  | randomBytes
  | lastRowid
  | changes
  | totalChanges
  | moment (form : MomentForm)
  | current (form : MomentForm)
  /-- A moment written by a pattern. -/
  | pattern
  /-- A description with another name for its table. -/
  | renameTable
  | renameTrigger
  /-- A description with another name for a table that it refers to. -/
  | renameParent
  deriving Repr, DecidableEq, Inhabited

namespace Builtin

open Argument

/-- The functions by name and number of arguments; minus one stands for any number. -/
def table : List (String × Int × Builtin) :=
  [("ltrim", 1, .trim true false), ("ltrim", 2, .trim true false),
    ("rtrim", 1, .trim false true), ("rtrim", 2, .trim false true),
    ("trim", 1, .trim true true), ("trim", 2, .trim true true),
    ("min", -1, .extreme false), ("max", -1, .extreme true),
    ("typeof", 1, .typeOf), ("length", 1, .length), ("instr", 2, .position),
    ("substr", 2, .slice), ("substr", 3, .slice), ("printf", -1, .format),
    ("unicode", 1, .codePoint), ("char", -1, .ofCodePoints), ("abs", 1, .abs), ("round", 1, .round), ("round", 2, .round),
    ("upper", 1, .upper), ("lower", 1, .lower), ("coalesce", -1, .version), ("hex", 1, .hex),
    ("ifnull", 2, .version), ("unlikely", 1, .version), ("likelihood", 2, .version),
    ("likely", 1, .version), ("random", 0, .random), ("randomblob", 1, .randomBytes),
    ("nullif", 2, .nullIf), ("sqlite_version", 0, .version), ("sqlite_source_id", 0, .sourceId),
    ("sqlite_log", 2, .log), ("sqlite_compileoption_used", 1, .hasOption),
    ("sqlite_compileoption_get", 1, .optionAt), ("quote", 1, .quote),
    ("last_insert_rowid", 0, .lastRowid), ("changes", 0, .changes),
    ("total_changes", 0, .totalChanges), ("replace", 3, .replace), ("zeroblob", 1, .zeros),
    ("glob", 2, .isMatch Pattern.glob), ("like", 2, .isMatch Pattern.like),
    ("like", 3, .isMatch Pattern.like), ("julianday", -1, .moment .days), ("date", -1, .moment .date),
    ("time", -1, .moment .time), ("datetime", -1, .moment .both), ("strftime", -1, .pattern),
    ("current_time", 0, .current .time), ("current_timestamp", 0, .current .both),
    ("current_date", 0, .current .date), ("MATCH", 2, .unusable),
    ("sqlite_rename_table", 2, .renameTable), ("sqlite_rename_trigger", 2, .renameTrigger),
    ("sqlite_rename_parent", 3, .renameParent)]

/-- Names that are known with a number of arguments with which they cannot be called. -/
def reserved : List (String × Int) := [("min", 0), ("max", 0), ("coalesce", 0), ("coalesce", 1)]

def ofName? (name : String) (arity : Int) : Option Builtin :=
  (table.find? fun f => f.1 == name && f.2.1 == arity).map (·.2.2)

/-! ### The functions on values -/

def kindName : Value.Kind → String
  | .integer => "integer"
  | .float => "real"
  | .text => "text"
  | .blob => "blob"
  | .null => "null"

/-- Removes what is one of `parts` from the start, at most `fuel` times. -/
def dropParts (parts : List Bytes) : Nat → Bytes → Bytes
  | 0, b => b
  | fuel + 1, b =>
    match parts.find? (·.isPrefixOf b) with
    | some p => if b.isEmpty then b else dropParts parts fuel (b.drop p.length)
    | none => b

/-- Removes what is one of `parts` from the sides of a text. -/
def trimBytes (left right : Bool) (parts : List Bytes) (b : Bytes) : Bytes :=
  let b := if left then dropParts parts b.length b else b
  if right then (dropParts (parts.map List.reverse) b.length b.reverse).reverse else b

/-- Where `needle` is in `haystack`: the count of steps plus one, or zero. In a text a step goes over
a whole character. -/
def positionFrom (isText : Bool) (needle : Bytes) : Nat → Nat → Bytes → Nat
  | 0, _, _ => 0
  | fuel + 1, n, haystack =>
    if haystack.length < needle.length then 0
    else if needle.isPrefixOf haystack then n
    else
      let rest := haystack.tail
      positionFrom isText needle fuel (n + 1)
        (if isText then rest.dropWhile Utf8.isContinuation else rest)

/-- Which part of a string of `length` units is meant: how many units to skip and to take. A negative
start counts from the end, a negative count takes what is before the start. -/
def sliceBounds (length start count : Int) : Nat × Nat :=
  let before : Bool := count < 0
  let p2 : Int := count.natAbs
  let (p1, p2) : Int × Int :=
    if start < 0 then
      if start + length < 0 then (0, max (p2 + (start + length)) 0) else (start + length, p2)
    else if 0 < start then (start - 1, p2)
    else (0, if 0 < p2 then p2 - 1 else p2)
  if before then
    if p1 - p2 < 0 then (0, p1.toNat) else ((p1 - p2).toNat, p2.toNat)
  else (p1.toNat, p2.toNat)

/-- The count that means all of a string. -/
def everything : Int := 1000000000

/-- Rounds to `n` places after the point; a half goes away from zero. -/
def roundPlaces (n : Nat) (x : Double) : Double :=
  let half := Double.ofDecimal false 5 (-1)
  let limit := Double.ofInt (maxWord + 1)
  if n = 0 && Double.zero.le x && x.lt limit then .ofInt (x.add half).toInt64Wide
  else if n = 0 && x.lt .zero && x.negate.lt limit then
    (Double.ofInt (x.negate.add half).toInt64Wide).negate
  else (Decimal.readReal (Decimal.render { style := .fixed, precision := n } x)).value

/-- A text in quotes; a quote inside is written twice. -/
def quoteText (b : Bytes) : Bytes := 39 :: (b.flatMap fun c => if c = 39 then [39, 39] else [c]) ++ [39]

/-- A double in the fewest digits, out of two choices, that read as it. -/
def quoteReal (x : Double) : Bytes :=
  let short := Decimal.ofReal x
  if x.beq (Decimal.readReal (short.take 20)).value then short
  else Decimal.render { style := .exponential, precision := 20, wide := true } x

/-- Puts `new` in the place of every `old`, which is not empty. -/
def replaceBytes (old new : Bytes) : Nat → Bytes → Bytes
  | 0, b => b
  | _ + 1, [] => []
  | fuel + 1, c :: rest =>
    if old.isPrefixOf (c :: rest) then new ++ replaceBytes old new fuel ((c :: rest).drop old.length)
    else c :: replaceBytes old new fuel rest

/-! ### The functions on arguments -/

def trimArgs (left right : Bool) (args : List Nat) : BankM Outcome := do
  match args with
  | [] => return .nothing
  | r :: more =>
    match ← sized? r with
    | none => return .nothing
    | some b =>
      match more with
      | [] => return .text (trimBytes left right [[32]] b)
      | s :: _ =>
        match ← text? s with
        | none => return .nothing
        | some set => return .text (trimBytes left right (Utf8.chars set.untilZero) b)

/-- The best of the arguments from `best` on, unless one has no value. -/
def extremeFrom (greatest : Bool) (coll : Option Collation) : Nat → List Nat → BankM Outcome
  | best, [] => return .same (← Bank.cell best)
  | best, r :: rest => do
    if (← kind r) = .null then return .nothing
    let o := Cell.compare coll (← Bank.cell best) (← Bank.cell r)
    extremeFrom greatest coll (if (if greatest then o == .lt else o != .lt) then r else best) rest

def positionArgs (r s : Nat) : BankM Outcome := do
  let rKind ← kind r
  let sKind ← kind s
  if rKind = .null || sKind = .null then return .nothing
  let n ← size r
  let k ← size s
  let isText := !(rKind = .blob && sKind = .blob)
  let read (r : Nat) : BankM (Option Bytes) := if isText then text? r else blob? r
  let haystack := ((← read r).getD []).take n
  let needle := ((← read s).getD []).take k
  return .int (positionFrom isText needle (haystack.length + 1) 1 haystack)

def sliceArgs (r s : Nat) (more : List Nat) : BankM Outcome := do
  if (← kind s) = .null then return .nothing
  match more with
  | t :: _ => if (← kind t) = .null then return .nothing
  | [] => pure ()
  let isBlob := (← kind r) = .blob
  let start ← half s
  if isBlob then
    let n ← size r
    match ← blob? r with
    | none => return .nothing
    | some b =>
      let (p1, p2) := sliceBounds n start (← count more)
      return .blob ((b.drop p1).take p2)
  else
    match ← text? r with
    | none => return .nothing
    | some b =>
      let chars := Utf8.chars b.untilZero
      let (p1, p2) := sliceBounds chars.length start (← count more)
      return .text ((chars.drop p1).take p2).flatten
where
  count : List Nat → BankM Int
    | t :: _ => half t
    | [] => return everything

def matchArgs (s : Pattern.Style) (args : List Nat) : BankM Outcome := do
  match args with
  | p :: t :: more =>
    let pattern ← text? p
    let text ← text? t
    if 50000 < (← size p) then return .failure "LIKE or GLOB pattern too complex"
    let escape : Option Nat ← match more with
      | [] => pure (some 0)
      | e :: _ => do
        match ← text? e with
        | none => return .nothing
        | some b =>
          match Utf8.chars b.untilZero with
          | [c] => pure (some (Utf8.read c).1)
          | _ => pure none
    match escape, pattern, text with
    | none, _, _ => return .failure "ESCAPE expression must be a single character"
    | some e, some p, some t => return .int (Pattern.isMatch s e p t).toNat
    | _, _, _ => return .nothing
  | _ => return .nothing

def absArg (r : Nat) : BankM Outcome := do
  match ← kind r with
  | .integer =>
    let n ← int r
    return if n = minWord then .failure "integer overflow" else .int n.natAbs
  | .null => return .null
  | _ =>
    let x ← real r
    return .real (if x.lt .zero then x.negate else x)

def roundArgs (r : Nat) (more : List Nat) : BankM Outcome := do
  let places : Option Nat ← match more with
    | [] => pure (some 0)
    | s :: _ => if (← kind s) = .null then pure none else pure (some (min (← half s) 30).toNat)
  match places with
  | none => return .nothing
  | some n => if (← kind r) = .null then return .nothing else return .real (roundPlaces n (← real r))

def lengthArg (r : Nat) : BankM Outcome := do
  match ← kind r with
  | .null => return .null
  | .text => return (((← text? r).map fun b => Outcome.int (Utf8.chars b.untilZero).length).getD .nothing)
  | _ => return .int (← size r)

def quoteArg (r : Nat) : BankM Outcome := do
  match ← kind r with
  | .null => return .fixedText (Bytes.ofString "NULL") false
  | .integer => return .same (← Bank.cell r)
  | .float => return .text (quoteReal (← real r)) true
  | .blob => return .text (88 :: 39 :: Hex.encode 65 ((← blob? r).getD []) ++ [39]) true
  | .text => return (((← text? r).map fun b => Outcome.madeText (quoteText b.untilZero)).getD .nothing)

def replaceArgs (r s t : Nat) : BankM Outcome := do
  match ← sized? r with
  | none => return .nothing
  | some b =>
    match ← text? s with
    | none => return .nothing
    | some old =>
      if old.untilZero.isEmpty then return .same (← Bank.cell r)
      let old := old.take (← size s)
      match ← sized? t with
      | none => return .nothing
      | some new => return .madeText (replaceBytes old new b.length b)

def formatArgs : List Nat → BankM Outcome
  | [] => return .nothing
  | r :: args => do
    match ← text? r with
    | none => return .nothing
    | some b => return ((← Format.write b.untilZero args).map Outcome.ownText).getD .null

def options : List String :=
  ["HAVE_ISNAN", "OMIT_LOAD_EXTENSION", "OMIT_PROGRESS_CALLBACK", "SYSTEM_MALLOC", "TEMP_STORE=1",
    "THREADSAFE=0"]

/-- Whether an option was used. Its value and the start that all options share may be left out, and
the case of letters does not count. -/
def optionUsed (b : Bytes) : Bool :=
  let b := b.map Bytes.lowerByte
  let shared := (Bytes.ofString "sqlite_")
  let b := if shared.isPrefixOf b then b.drop shared.length else b
  options.any fun o =>
    let o := (Bytes.ofString o).map Bytes.lowerByte
    b.isPrefixOf o && !((o.drop b.length).take 1).any Token.isWordByte

/-- A random word that has an opposite. -/
def randomInt (word : Nat) : Int :=
  let n := wordToInt (UInt64.ofNat word)
  if n < 0 then -(n - minWord) else n

/-- The moment that arguments stand for: the first one says it, and those behind it change it. -/
def momentOf? (now : Int) : List Nat → BankM (Option Moment)
  | [] => return some (.ofMillis now)
  | r :: rest => do
    let start : Option Moment ← match ← kind r with
      | .integer | .float => pure (some (.ofDays (← real r)))
      | _ => pure ((← text? r).bind fun b => Moment.ofText? now b.untilZero)
    rest.foldlM (fun m r => do
      match m with
      | none => return none
      | some m => return (← text? r).bind fun b => m.shift? b.untilZero) start

def momentOutcome (form : MomentForm) (m : Moment) : Outcome :=
  match form with
  | .days => .real m.days
  | .date => .text m.renderDate true
  | .time => .text m.renderTime true
  | .both => .text m.renderBoth true

def patternArgs (now : Int) : List Nat → BankM Outcome
  | [] => return .nothing
  | r :: args => do
    match ← text? r with
    | none => return .nothing
    | some b =>
      let written := (← momentOf? now args).bind fun m => m.settle.render? b.untilZero
      return (written.map fun b => Outcome.text b true).getD .nothing

/-- A description with another name, if the place of the name is found. -/
def renameArgs (f : Bytes → Option Bytes → Option Bytes) (r s : Nat) : BankM Outcome := do
  let description ← text? r
  let new := (← text? s).map Bytes.untilZero
  return ((description.bind fun b => f b.untilZero new).map fun b => Outcome.ownText b true).getD .nothing

def renameParentArgs (r s t : Nat) : BankM Outcome := do
  let description ← text? r
  let old ← text? s
  let new := (← text? t).map Bytes.untilZero
  match description, old with
  | some b, some old => return .ownText (Renamed.parent b.untilZero old.untilZero new) true
  | _, _ => return .nothing

/-- The code points of the arguments; those that are none stand for an unknown character. -/
def encodeArgs (args : List Nat) : BankM Bytes := do
  let codes ← args.mapM int
  return codes.flatMap fun c => Utf8.encode (if c < 0 || 0x10ffff < c then 0xfffd else c.toNat)

def call (f : Builtin) (s : Surroundings) (args : List Nat) : BankM Outcome := do
  match f, args with
  | .trim left right, args => trimArgs left right args
  | .extreme greatest, r :: rest =>
    if (← kind r) = .null then return .nothing else extremeFrom greatest s.collation r rest
  | .typeOf, r :: _ => return .ofString (kindName (← kind r))
  | .length, r :: _ => lengthArg r
  | .position, r :: s :: _ => positionArgs r s
  | .slice, r :: s :: more => sliceArgs r s more
  | .codePoint, r :: _ =>
    match (← text? r).map Bytes.untilZero with
    | none | some [] => return .nothing
    | some b => return .int (Utf8.read b).1
  | .ofCodePoints, args => return .madeText (← encodeArgs args)
  | .abs, r :: _ => absArg r
  | .round, r :: more => roundArgs r more
  | .upper, r :: _ => return (((← sized? r).map fun b => Outcome.madeText (b.map Bytes.upperByte)).getD .nothing)
  | .lower, r :: _ => return (((← sized? r).map fun b => Outcome.madeText (b.map Bytes.lowerByte)).getD .nothing)
  | .hex, r :: _ => return .madeText (Hex.encode 65 ((← blob? r).getD []))
  | .nullIf, r :: t :: _ =>
    let c ← Bank.cell r
    return if Cell.compare s.collation c (← Bank.cell t) = .eq then .nothing else .same c
  | .quote, r :: _ => quoteArg r
  | .replace, r :: s :: t :: _ => replaceArgs r s t
  | .format, args => formatArgs args
  | .zeros, r :: _ =>
    let n ← int r
    return if everything < n then .tooBig else .zeros (wrapHalf n)
  | .isMatch style, args => matchArgs style args
  | .version, _ => return .ofString "3.8.8.2"
  | .sourceId, _ =>
    return .ofString "2015-01-30 14:30:45 7757fc721220e136620a89c9d28247f28bbbc098"
  | .hasOption, r :: _ =>
    return (((← text? r).map fun b => Outcome.int (optionUsed b.untilZero).toNat).getD .nothing)
  | .optionAt, r :: _ =>
    let n ← half r
    return (((if 0 ≤ n then options[n.toNat]? else none).map Outcome.ofString).getD .null)
  | .log, _ :: r :: _ =>
    let _ ← text? r
    return .nothing
  | .unusable, _ => return .failure "unable to use function MATCH in the requested context"
  | .random, _ => return .int (randomInt (s.draws 0))
  | .randomBytes, r :: _ =>
    let n := max (← half r) 1
    if everything < n then return .tooBig
    else return .madeBlob ((List.range n.toNat).map fun i => UInt8.ofNat (s.draws i))
  | .lastRowid, _ => return .int s.lastRowid
  | .changes, _ => return .int s.changes
  | .totalChanges, _ => return .int s.totalChanges
  | .moment form, args => return (((← momentOf? s.now args).map (momentOutcome form)).getD .nothing)
  | .current form, _ => return momentOutcome form (.ofMillis s.now)
  | .pattern, args => patternArgs s.now args
  | .renameTable, r :: s :: _ => renameArgs Renamed.table? r s
  | .renameTrigger, r :: s :: _ => renameArgs Renamed.trigger? r s
  | .renameParent, r :: s :: t :: _ => renameParentArgs r s t
  | _, _ => return .nothing

/-- How many random words a call has used up. -/
def used (f : Builtin) (o : Outcome) : Nat :=
  match f, o with
  | .random, _ => 1
  | .randomBytes, .madeBlob b => b.length
  | _, _ => 0

end Builtin

end QueryMachine
