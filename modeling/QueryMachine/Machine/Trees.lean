import QueryMachine.Machine.Basic

/-!
Cursors at work: which tree a cursor moves in, how it moves there, and what a change of the tree means
for the other cursors.
-/

namespace QueryMachine.Machine

/-- The tree that a cursor moves in, if it is there and of the kind that the cursor expects. -/
def treeOf? (m : Machine) (c : Cursor) : Option Tree :=
  match c.source with
  | .main root =>
    match m.database.tree? root with
    | some t => if t.isTable == c.info.isNone then some t else none
    | none => none
  | .own t _ => some t
  | .register _ | .sorter _ => none

/-- The tree that a cursor moves in; nothing is in one that is missing. -/
def treeOf (c : Cursor) : MachineM Tree := return ((← get).treeOf? c).getD default

def moveCursor (i : Int) (c : Cursor) (p : Position) : MachineM Unit :=
  setCursor i (some { c with position := p })

/-- Makes a cursor look for something in its tree. A tree that is missing is damaged. -/
def seekCursor (i : Int) (c : Cursor) (f : Tree → Position → Option Ordering × Position) :
    MachineM (Option Ordering) := do
  match (← get).treeOf? c with
  | none =>
    moveCursor i c {}
    return none
  | some t =>
    let (found, p) := f t c.position
    moveCursor i c p
    return found

def seekRow (i : Int) (c : Cursor) (key : Int) : MachineM (Option Ordering) :=
  seekCursor i c fun t p => p.seekKey t key false

def seekKey (i : Int) (c : Cursor) (k : SearchKey) : MachineM (Option Ordering) :=
  seekCursor i c fun t _ => Position.seek t (Tree.orderOfRecord k) false

/-- Goes back to the entry that a cursor kept, if its tree was changed; where that is gone there is no
row. Answers whether the tree is in order. -/
def restoreCursor (i : Int) : MachineM Bool := do
  let c ← cursor i
  if c.position.isHere then return true
  else
    let (ok, p) := c.position.restore (← treeOf c) c.info
    let c := { c with position := p }.stale
    setCursor i (some (if ok.isSome && p.isHere then c else { c with nullRow := true }))
    return ok.isSome

/-- Makes the cursors on a tree of the database keep their entries, except one. -/
def keepOthers (root : Int) (except : Option Int) : MachineM Unit :=
  modify fun m =>
    match m.database.tree? root with
    | none => m
    | some t =>
      { m with
        cursors := m.cursors.mapIdx fun (j : Nat) c? =>
          match c? with
          | some c =>
            if c.source == .main root && except != some (j : Int) then
              some { c with position := c.position.keep t }
            else some c
          | none => none }

/-- Changes the tree of a cursor and puts the cursor at a position there. -/
def changeTree (i : Int) (c : Cursor) (f : SpaceM (Tree × Position)) : MachineM Unit := do
  match c.source with
  | .main root =>
    let ((t, p), space) := f.run (← get).database.space
    moveCursor i c p
    modify fun m => { m with database := m.database.setTree root t space }
  | .own _ space =>
    let ((t, p), space) := f.run space
    setCursor i (some { c with source := .own t space, position := p })
  | .register _ | .sorter _ => pure ()

/-- Makes the other cursors keep their entries before the tree of a cursor changes. -/
def announceChange (i : Int) (c : Cursor) : MachineM Unit :=
  match c.source with
  | .main root => keepOthers root (some i)
  | _ => pure ()

def keyContents (p3 n : Int) : BankM (List Content) :=
  (List.range n.toNat).mapM fun (k : Nat) => do
    return (← Bank.cell (← Bank.slot (p3 + k))).toContent

end QueryMachine.Machine
