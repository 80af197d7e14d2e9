import QueryMachine.Store.Balance

/-!
Positions in a tree. A position stands on an entry or nowhere, or in a table on a key between two
leaves. When another cursor changes the tree, a position keeps the entry it stood on and looks for it
again when it is next used.
-/

namespace QueryMachine

inductive Place
  | nowhere
  | here
  /-- On the first key of the root of a table; the entry here is the first one behind it. -/
  | between
  /-- The entry that was kept is gone; the one here is before or behind it. -/
  | beside (side : Ordering)
  | kept (e : Entry)
  deriving Repr, DecidableEq, Inhabited

structure Position where
  place : Place := .nowhere
  index : Nat := 0
  /-- The key that was read last. An insertion does not change it. -/
  noted : Option Int := none
  /-- The key that was read last is the key of the entry here. -/
  fresh : Bool := false
  /-- The entry here is known to be the last one. -/
  atLast : Bool := false
  deriving Repr, DecidableEq, Inhabited

namespace Position

def isHere (p : Position) : Bool := p.place == .here || p.place == .between

/-- What the position stands on; a key between two leaves has no record. -/
def entry (t : Tree) (p : Position) : Entry :=
  match p.place, t.spread.firstGap? with
  | .between, some j => t.divider j
  | _, _ => t.entry p.index

def first (t : Tree) : Position :=
  { place := if t.entries.isEmpty then .nowhere else .here }

/-- Goes to the last entry, unless it is known to be there. -/
def last (t : Tree) (p : Position) : Position :=
  if p.isHere && p.atLast then p
  else if t.entries.isEmpty then {}
  else { place := .here, index := t.entries.length - 1, atLast := true }

/-- What a search found: nothing if an entry was damaged, else the order of the entry at the new
position. An empty tree counts as standing before what was looked for. -/
def ofSearch : Search → Option Ordering × Position
  | .empty => (some .lt, {})
  | .stopped i o => (some o, { place := .here, index := i })
  | .damaged i => (none, { place := .here, index := i })

def seek (t : Tree) (order : Entry → Option Ordering) (fromLast : Bool) : Option Ordering × Position :=
  ofSearch (t.search order fromLast)

/-- Looks for a key in a table; what has been read here may already answer it. -/
def seekKey (t : Tree) (key : Int) (fromLast : Bool) (p : Position) : Option Ordering × Position :=
  match p.isHere, p.noted with
  | true, some k =>
    if k = key then (some .eq, p)
    else if p.atLast && k < key then (some .lt, p)
    else seek t (Tree.orderOfKey key) fromLast
  | _, _ => seek t (Tree.orderOfKey key) fromLast

/-- Looks for the entry that was kept. -/
def restore (t : Tree) (info : Option KeyInfo) (p : Position) : Option Unit × Position :=
  match p.place with
  | .kept e =>
    match seek t (Tree.orderOfEntry info e) false with
    | (none, p) => (none, p)
    | (some .eq, p) => (some (), p)
    | (some o, p) => (some (), if p.isHere then { p with place := .beside o } else p)
  | _ => (some (), p)

/-- Steps behind what is here. -/
def stepNext (t : Tree) (p : Position) : Bool × Position :=
  let i := if p.place == .between then p.index else p.index + 1
  if i < t.entries.length then (true, { p with place := .here, index := i })
  else (false, { p with place := .nowhere, index := i })

def stepPrevious (p : Position) : Bool × Position :=
  if p.index = 0 then (false, { p with place := .nowhere })
  else (true, { p with place := .here, index := p.index - 1 })

def next (t : Tree) (info : Option KeyInfo) (p : Position) : Option Bool × Position :=
  let p := { p with noted := none, fresh := false }
  match p.restore t info with
  | (none, p) => (none, p)
  | (some _, p) =>
    match p.place with
    | .here | .between => let (b, p) := stepNext t p; (some b, p)
    | .beside .gt => (some true, { p with place := .here })
    | .beside _ => let (b, p) := stepNext t p; (some b, p)
    | _ => (some false, p)

def previous (t : Tree) (info : Option KeyInfo) (p : Position) : Option Bool × Position :=
  let p := { p with noted := none, fresh := false, atLast := false }
  match p.restore t info with
  | (none, p) => (none, p)
  | (some _, p) =>
    match p.place with
    | .here | .between => let (b, p) := stepPrevious p; (some b, p)
    | .beside .lt => (some true, { p with place := .here })
    | .beside _ => let (b, p) := stepPrevious p; (some b, p)
    | _ => (some false, p)

/-- The number that goes with what is here: its key, or in an index the length of its record. -/
def number (t : Tree) (p : Position) : Int :=
  if t.isTable then (p.entry t).key else (p.entry t).record.length

/-- Reads the number of what is here. -/
def note (t : Tree) (p : Position) : Int × Position :=
  match p.fresh, p.noted with
  | true, some k => (k, p)
  | _, _ => let k := p.number t; (k, { p with noted := some k, fresh := true })

/-- Keeps what is here, because the tree is about to be changed by another cursor. -/
def keep (t : Tree) (p : Position) : Position :=
  if p.isHere then { (p.note t).2 with place := .kept (p.entry t) } else p

/-- Puts an entry beside the one here, which is before it, behind it or the one to replace. The
position stands on the new entry afterwards, unless it stood nowhere; it stands nowhere if the pages
had to change. A key between two leaves that would be replaced stays as it is. -/
def insert (bulk : Bool) (t : Tree) (e : Entry) (order : Ordering) (p : Position) :
    SpaceM (Tree × Position) := do
  let p := { p with fresh := false }
  match order with
  | .eq => if p.place == .between then return (t, p) else arrived p (← t.replace bulk p.index e)
  | .lt =>
    if t.entries.isEmpty then arrived p (← t.insertBeside bulk true p.index e)
    else arrived { p with index := p.index + 1 } (← t.insertBeside bulk false p.index e)
  | .gt => arrived p (← t.insertBeside bulk true p.index e)
where
  arrived (p : Position) : Tree × Bool → SpaceM (Tree × Position)
    | (t, moved) => return (t, if moved then {} else p)

/-- Goes to what is first on the root. -/
def atRoot (t : Tree) : Position :=
  match t.spread.firstGap? with
  | none => first t
  | some j =>
    if t.isTable then { place := .between, index := t.leafStart j }
    else { place := .here, index := t.leafStart j - 1 }

/-- Removes what is here and goes to what is first on the root. -/
def erase (bulk : Bool) (t : Tree) (p : Position) : SpaceM (Tree × Position) := do
  let t ←
    match p.place, t.spread.firstGap? with
    | .between, some j => t.eraseBefore bulk j
    | _, _ => t.erase bulk p.index
  return (t, atRoot t)

end Position

end QueryMachine
