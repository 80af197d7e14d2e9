import QueryMachine.Cell.Compare
import QueryMachine.Record.Field
import QueryMachine.Text.Token

/-!
Conditions on the rows that describe tables. A condition is a text: comparisons of columns and
constants, joined by words. It holds, does not hold, or has no value.
-/

namespace QueryMachine

inductive Condition
  | constant (v : Value)
  | column (i : Nat)
  /-- Whether the order of two values is one of these. With `definite` no value is a value, too. -/
  | compare (orders : List Ordering) (definite : Bool) (a b : Condition)
  | not (a : Condition)
  | and (a b : Condition)
  | or (a b : Condition)
  deriving Repr, DecidableEq, Inhabited

namespace Condition

/-- The columns of a row that describes a table, and the number of the row. -/
def columns : List String := ["type", "name", "tbl_name", "rootpage", "sql", "rowid"]

def affinity : Condition → Affinity
  | .column i => if i = 3 || i = 5 then .integer else .text
  | _ => .none

/-- The affinity with which two values are compared. -/
def jointAffinity (a b : Affinity) : Affinity :=
  if a.isNumeric || b.isNumeric then .numeric
  else if a = .text || b = .text then .text
  else .none

/-- The truth of a value: nothing if it has none. -/
def truth (c : Cell) : Option Bool :=
  if c.flags.null then none else some !c.realValue.isZero

def ofTruth : Option Bool → Cell
  | some b => .ofInt b.toNat
  | none => .null

def eval (row : List Value) : Condition → Cell
  | .constant v => .ofValue 0 v
  | .column i => .ofValue 0 (row.getD i .null)
  | .compare orders definite a b =>
    let aff := jointAffinity a.affinity b.affinity
    let x := (a.eval row).applyAffinity 1 aff
    let y := (b.eval row).applyAffinity 1 aff
    if !definite && (x.flags.null || y.flags.null) then .null
    else .ofInt (orders.contains (Cell.compare none x y)).toNat
  | .not a => ofTruth ((truth (a.eval row)).map (!·))
  | .and a b =>
    match truth (a.eval row), truth (b.eval row) with
    | some false, _ | _, some false => .ofInt 0
    | some true, some true => .ofInt 1
    | _, _ => .null
  | .or a b =>
    match truth (a.eval row), truth (b.eval row) with
    | some true, _ | _, some true => .ofInt 1
    | some false, some false => .ofInt 0
    | _, _ => .null

def holds (c : Condition) (row : List Value) : Bool := truth (c.eval row) == some true

/-! ### Reading -/

/-- A constant or a column. A name in double quotes that is no column is a text. -/
def ofToken? (t : Token) : Option Condition :=
  match t.kind with
  | .string => some (.constant (.text t.name))
  | .integer =>
    let read := Decimal.readInt t.bytes
    some (.constant (if read.fit = .exact then .int read.value else .real (Decimal.readReal t.bytes).value))
  | .number => some (.constant (.real (Decimal.readReal t.bytes).value))
  | .word | .quoted =>
    if t.isWord "null" then some (.constant .null)
    else
      match columns.findIdx? fun c => Bytes.ofString c == t.name.map Bytes.lowerByte with
      | some i => some (.column i)
      | none => if t.bytes.head? = some 34 then some (.constant (.text t.name)) else none
  | _ => none

/-- The orders for which a sign of comparison stands. -/
def orders? (t : Token) : Option (List Ordering) :=
  if t.isSymbol "=" || t.isSymbol "==" then some [.eq]
  else if t.isSymbol "!=" || t.isSymbol "<>" then some [.lt, .gt]
  else if t.isSymbol "<" then some [.lt]
  else if t.isSymbol "<=" then some [.lt, .eq]
  else if t.isSymbol ">" then some [.gt]
  else if t.isSymbol ">=" then some [.gt, .eq]
  else none

/-- How tightly a part of a condition is bound. -/
inductive Level
  | either
  | both
  | negated
  | equality
  | inequality
  | atom
  deriving Repr, DecidableEq, Inhabited

namespace Level

def tighter : Level → Level
  | .either => .both
  | .both => .negated
  | .negated => .equality
  | .equality => .inequality
  | .inequality | .atom => .atom

/-- What joins two conditions at a level, and how many tokens say so. -/
def joint? (l : Level) (tokens : List Token) : Option ((Condition → Condition → Condition) × Nat) :=
  match l, tokens with
  | .either, t :: _ => if t.isWord "or" then some (.or, 1) else none
  | .both, t :: _ => if t.isWord "and" then some (.and, 1) else none
  | .equality, t :: rest =>
    if t.isWord "is" then
      if (rest.head?.map (·.isWord "not")) = some true then some (.compare [.lt, .gt] true, 2)
      else some (.compare [.eq] true, 1)
    else
      match orders? t with
      | some o => if o = [.eq] || o = [.lt, .gt] then some (.compare o false, 1) else none
      | none => none
  | .inequality, t :: _ =>
    match orders? t with
    | some o => if o = [.eq] || o = [.lt, .gt] then none else some (.compare o false, 1)
    | none => none
  | _, _ => none

end Level

mutual

def read? : Nat → Level → List Token → Option (Condition × List Token)
  | 0, _, _ => none
  | fuel + 1, .atom, t :: rest =>
    if t.isSymbol "(" then do
      let (c, rest) ← read? fuel .either rest
      match rest with
      | u :: rest => if u.isSymbol ")" then some (c, rest) else none
      | [] => none
    else (ofToken? t).map fun c => (c, rest)
  | fuel + 1, .negated, t :: rest =>
    if t.isWord "not" then do
      let (c, rest) ← read? fuel .negated rest
      some (.not c, rest)
    else read? fuel .equality (t :: rest)
  | fuel + 1, l, tokens => do
    let (c, rest) ← read? fuel l.tighter tokens
    readMore? fuel l c rest

/-- Reads what follows a condition at its level. -/
def readMore? : Nat → Level → Condition → List Token → Option (Condition × List Token)
  | 0, _, _, _ => none
  | fuel + 1, l, c, tokens =>
    match l.joint? tokens with
    | none => some (c, tokens)
    | some (join, n) => do
      let (d, rest) ← read? fuel l.tighter (tokens.drop n)
      readMore? fuel l (join c d) rest

end

def ofText? (b : Bytes) : Option Condition :=
  let tokens := (Token.all b).filter (!·.isSpace)
  match read? (8 * tokens.length + 8) .either tokens with
  | some (c, []) => some c
  | _ => none

end Condition

end QueryMachine
