import QueryMachine.Store.Database

/-!
Databases from descriptions. The first tree holds a row for every other one: what it is, its name, the
name of its table, its root, and the words that define it.
-/

namespace QueryMachine

structure TableSpec where
  columns : Nat
  rows : List (Int × List Value)
  deriving Repr, DecidableEq, Inhabited

structure IndexSpec where
  /-- The number of the table, from zero on. -/
  table : Nat
  /-- The columns with their collations; those that are marked go down. -/
  columns : List (Nat × Collation × Bool)
  deriving Repr, DecidableEq, Inhabited

namespace Schema

def tableName (t : Nat) : String := "t" ++ toString t

def indexName (i : Nat) : String := "i" ++ toString i

def columnName (c : Nat) : String := "c" ++ toString c

def tableText (t : Nat) (s : TableSpec) : String :=
  "CREATE TABLE " ++ tableName t ++ "(" ++ ",".intercalate ((List.range s.columns).map columnName) ++ ")"

def indexText (i : Nat) (s : IndexSpec) : String :=
  let column (c : Nat × Collation × Bool) : String :=
    columnName c.1 ++ " COLLATE " ++ c.2.1.name ++ if c.2.2 then " DESC" else ""
  "CREATE INDEX " ++ indexName i ++ " ON " ++ tableName s.table ++ "(" ++
    ",".intercalate (s.columns.map column) ++ ")"

/-- A row of the first tree. -/
def row (kind name table : String) (root : Nat) (text : String) : List Value :=
  [.text (Bytes.ofString kind), .text (Bytes.ofString name), .text (Bytes.ofString table), .int root,
    .text (Bytes.ofString text)]

def tableRow (t : Nat) (s : TableSpec) (root : Nat) : List Value :=
  row "table" (tableName t) (tableName t) root (tableText t s)

def indexRow (i : Nat) (s : IndexSpec) (root : Nat) : List Value :=
  row "index" (indexName i) (tableName s.table) root (indexText i s)

end Schema

namespace IndexSpec

/-- The order of an index; a record ends with the number of its row. -/
def info (s : IndexSpec) : KeyInfo := ⟨s.columns.map (·.2) ++ [(.binary, false)], 0⟩

def entry (s : IndexSpec) (key : Int) (values : List Value) : Entry :=
  { record := Record.ofValues 4 (s.columns.map (fun c => values.getD c.1 .null) ++ [.int key]) }

end IndexSpec

namespace Database

/-- Makes a tree and describes it in the first one; answers its root. -/
def create (isTable : Bool) (row : Nat → List Value) : StateM Database Nat := do
  let root ← modifyGet (addTree isTable)
  modify fun d =>
    let e : Entry := { key := d.trees.length - 1, record := Record.ofValues 4 (row root) }
    (d.addEntry 1 none e).setCookie 1 (d.cookie 1 + 1)
  return root

/-- Puts a row into a table, and before that its entries into the indexes of the table. -/
def addRow (root : Nat) (indexes : List (IndexSpec × Nat)) (key : Int) (values : List Value)
    (d : Database) : Database :=
  let d := indexes.foldl (fun d (s, i) => d.addEntry i (some s.info) (s.entry key values)) d
  d.addEntry root none { key, record := Record.ofValues 4 values }

/-- Makes tables and indexes and then fills them. The index of a table that was made last comes
first. -/
def build (tables : List TableSpec) (indexes : List IndexSpec) : StateM Database Unit := do
  let roots ← tables.zipIdx.mapM fun (s, t) => create true (Schema.tableRow t s)
  let indexRoots ← indexes.zipIdx.mapM fun (s, i) => create false (Schema.indexRow i s)
  let all := (indexes.zip indexRoots).reverse
  for (s, t, root) in tables.zip roots.zipIdx |>.map (fun (s, root, t) => (s, t, root)) do
    let own := all.filter fun (i, _) => i.table == t
    for (key, values) in s.rows do
      modify (addRow root own key values)

def ofSpecs (tables : List TableSpec) (indexes : List IndexSpec) : Database :=
  ((build tables indexes).run start).2

end Database

end QueryMachine
