import QueryMachine.Store.Position

/-!
The database of a machine: trees by the number of their root, and a few numbers that are kept with
them.
-/

namespace QueryMachine

structure Database where
  trees : List Tree
  space : Space
  /-- Sixteen numbers, among them the version of the schema and the format of records. -/
  cookies : List Nat
  format : Nat := 4
  deriving Repr, DecidableEq, Inhabited

namespace Database

def tree? (d : Database) (root : Int) : Option Tree := d.trees.find? fun t => (t.root : Int) == root

def setTree (d : Database) (root : Int) (t : Tree) (space : Space) : Database :=
  { d with trees := d.trees.map (fun u => if (u.root : Int) == root then t else u), space }

def addTree (isTable : Bool) (d : Database) : Nat × Database :=
  let (root, space) := d.space.take 1
  (root, { d with trees := d.trees ++ [.empty isTable root], space })

def addEntry (root : Int) (info : Option KeyInfo) (e : Entry) (d : Database) : Database :=
  match d.tree? root with
  | none => d
  | some t =>
    match Position.seek t (Tree.orderOfEntry info e) false with
    | (none, _) => d
    | (some o, p) =>
      let ((t, _), space) := (p.insert false t e o).run d.space
      d.setTree root t space

/-- A number that is kept with the trees, as a signed half word. The first one counts the free pages,
too. -/
def cookie (d : Database) (i : Int) : Int :=
  if 0 ≤ i then wrapHalf (d.cookies.getD i.toNat 0 + if i = 0 then d.space.freeCount else 0) else 0

def setCookie (d : Database) (i : Int) (n : Int) : Database :=
  { d with cookies := d.cookies.set i.toNat (n % 4294967296).toNat }

def rows (n : Nat) (t : Tree) : List (Int × List Value) :=
  t.entries.map fun e =>
    let values := ((Record.fields? e.record).getD []).map (·.value)
    (e.key, (values ++ List.replicate (n - values.length) Value.null).take n)

/-- A database with one table, which describes what is added. -/
def start : Database where
  trees := [.empty true 1]
  space := { size := 1 }
  cookies := [0, 0, 4, 0, 0, 1, 0, 0, 0, 0, 0, 0, 0, 0, 0, 0]

end Database

end QueryMachine
