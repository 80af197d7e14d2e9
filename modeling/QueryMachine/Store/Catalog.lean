import QueryMachine.Store.Condition
import QueryMachine.Store.Database
import QueryMachine.Text.Utf8

/-!
What a machine knows of the tables and indexes that the first tree describes. It learns of new ones by
reading their descriptions again.
-/

namespace QueryMachine

structure Described where
  isTable : Bool
  name : Bytes
  table : Bytes := []
  deriving Repr, DecidableEq, Inhabited

abbrev Catalog := List Described

namespace Described

def sameName (a b : Bytes) : Bool := a.map Bytes.lowerByte == b.map Bytes.lowerByte

/-- Whether a description is only for the case that there is nothing of its name, and what comes
behind the words that say so. -/
def dropGuard (tokens : List Token) : Bool × List Token :=
  match tokens with
  | a :: b :: c :: rest =>
    if a.isWord "if" && b.isWord "not" && c.isWord "exists" then (true, rest) else (false, tokens)
  | _ => (false, tokens)

/-- The token of a name; a name of a database before it is left out. -/
def nameToken? : List Token → Option (Token × List Token)
  | a :: b :: c :: rest => if b.isSymbol "." then some (c, rest) else some (a, b :: c :: rest)
  | a :: rest => some (a, rest)
  | [] => none

/-- What a description describes: whether it is guarded, the token of its name, and the thing. -/
def ofText? (b : Bytes) : Option (Bool × Token × Described) := do
  let first :: tokens := (Token.all b).filter (!·.isSpace) | none
  if !first.isWord "create" then none
  else
    let kind :: rest := tokens.dropWhile fun t => t.isWord "temp" || t.isWord "unique" | none
    let (guarded, rest) := dropGuard rest
    let (t, rest) ← nameToken? rest
    if kind.isWord "table" then some (guarded, t, { isTable := true, name := t.name })
    else if kind.isWord "index" then
      let table := match rest with
        | _ :: u :: _ => u.name
        | _ => []
      some (guarded, t, { isTable := false, name := t.name, table })
    else none

end Described

namespace Catalog

/-- The columns of the rows of the first tree; the number of the row comes last. -/
def rows (t : Tree) : List (List Value) :=
  t.entries.map fun e =>
    let values := ((Record.fields? e.record).getD []).map (·.value)
    (values ++ List.replicate (5 - values.length) Value.null).take 5 ++ [.int e.key]

def text? (v : Value) : Option Bytes := ((Cell.ofValue 0 v).valueText 1).1.map Bytes.untilZero

/-- Adds what a description describes. What is there already must not be described again. -/
def addText (c : Catalog) (b : Bytes) : Except Bytes Catalog :=
  match Described.ofText? b with
  | none => .ok c
  | some (guarded, t, d) =>
    match c.find? fun e => Described.sameName e.name d.name with
    | none => .ok (c ++ [d])
    | some e =>
      if guarded then .ok c
      else if d.isTable then
        if e.isTable then .error (Bytes.ofString "table " ++ t.bytes ++ Bytes.ofString " already exists")
        else .error (Bytes.ofString "there is already an index named " ++ d.name)
      else .error (Bytes.ofString "index " ++ d.name ++ Bytes.ofString " already exists")

/-- What is said of a row that does not describe anything. -/
def malformed (name : Option Bytes) (cause : Option Bytes) : Bytes :=
  Bytes.ofString "malformed database schema (" ++ name.getD (Bytes.ofString "?") ++ Bytes.ofString ")" ++
    match cause with
    | some b => Bytes.ofString " - " ++ b
    | none => []

def addRow (c : Catalog) (row : List Value) : Except Bytes Catalog :=
  let column (i : Nat) : Option Bytes := text? (row.getD i .null)
  let name := column 1
  match column 3, column 4 with
  | none, _ => .error (malformed name none)
  | _, some (b :: rest) => (c.addText (b :: rest)).mapError fun cause => malformed name (some cause)
  | _, _ => if name.isNone then .error (malformed none none) else .ok c

/-- Reads rows; goes on behind one that is malformed, and answers what is said of the last such. -/
def addRows (c : Catalog) (rows : List (List Value)) : Catalog × Option Bytes :=
  rows.foldl
    (fun (c, message) row =>
      match addRow c row with
      | .ok c => (c, message)
      | .error e => (c, some e))
    (c, none)

/-- All that the first tree describes. -/
def ofTree (t : Tree) : Catalog := (addRows [] (rows t)).1

def dropTable (name : Bytes) (c : Catalog) : Catalog :=
  c.filter fun d => !(Described.sameName name (if d.isTable then d.name else d.table))

end Catalog

end QueryMachine
