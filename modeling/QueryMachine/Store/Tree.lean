import QueryMachine.Record.Order
import QueryMachine.Store.Spread

/-!
Trees: ordered lists of entries that are spread over pages. A table orders its entries by an integer
key; an index orders them by their records. A search goes from the root down to a leaf, so that the
entry it stops at depends on the pages if there is none that it looks for.
-/

namespace QueryMachine

structure Entry where
  /-- The row number in a table; not used in an index. -/
  key : Int := 0
  record : Bytes
  /-- The pages that hold what does not lie together with the entry. -/
  spill : List Nat := []
  deriving Repr, DecidableEq, Inhabited

structure Tree where
  isTable : Bool
  entries : List Entry := []
  spread : Spread
  deriving Repr, DecidableEq, Inhabited

/-- How a search ends: the entry looked at last and its order against what is looked for. -/
inductive Search
  | empty
  | stopped (index : Nat) (order : Ordering)
  | damaged (index : Nat)
  deriving Repr, DecidableEq, Inhabited

/-- Looks at item `i` and goes on in the half of `lo, …, hi` on the side of what is looked for. -/
def Search.probe (order : Nat → Option Ordering) : Nat → Int → Int → Nat → Search
  | 0, _, _, i => .damaged i
  | fuel + 1, lo, hi, i =>
    match order i with
    | none => .damaged i
    | some .eq => .stopped i .eq
    | some .lt =>
      if hi < i + 1 then .stopped i .lt else probe order fuel (i + 1) hi ((i + 1 + hi) / 2).toNat
    | some .gt =>
      if (i : Int) - 1 < lo then .stopped i .gt
      else probe order fuel lo (i - 1) ((lo + (i - 1)) / 2).toNat

/-- Looks through the `n` items from `start` on. The search starts in the middle, or with the last
item. -/
def Search.among (order : Nat → Option Ordering) (fromLast : Bool) (start n : Nat) : Search :=
  if n = 0 then .empty
  else probe order n start (start + (n - 1)) (start + if fromLast then n - 1 else (n - 1) / 2)

namespace Tree

def empty (isTable : Bool) (root : Nat) : Tree := { isTable, spread := .single root 0 }

def entry (t : Tree) (i : Nat) : Entry := t.entries.getD i default

def root (t : Tree) : Nat := t.spread.root.number

/-- How many bytes of a record of length `n` lie together with its entry. -/
def localSize (t : Tree) (n : Nat) : Nat :=
  let most := if t.isTable then 989 else 230
  let least := 103
  if n ≤ most then n
  else
    let k := least + (n - least) % 1020
    if k ≤ most then k else least

/-- How many entries stand between neighbouring leaves. -/
def gap (t : Tree) : Nat := if t.isTable then 0 else 1

def leafStart (t : Tree) (j : Nat) : Nat :=
  ((t.spread.level 0).take j).foldl (fun n p => n + p.count + t.gap) 0

/-- What stands between a leaf and the one before it: a key in a table, an entry in an index. -/
def divider (t : Tree) (j : Nat) : Entry :=
  if t.isTable then { key := t.spread.seams.getD (j - 1) 0, record := [] }
  else t.entry (t.leafStart j - 1)

/-- Goes on from page `j` of level `k`. -/
def descend (order : Entry → Option Ordering) (fromLast : Bool) (t : Tree) : Nat → Nat → Search
  | 0, j =>
    Search.among (fun i => order (t.entry i)) fromLast (t.leafStart j) (t.spread.page 0 j).count
  | k + 1, j =>
    let first := t.spread.firstBelow (k + 1) j
    let leaf (i : Nat) : Nat := (t.spread.bounds k).getD (first + i + 1) 0
    let look (i : Nat) : Option Ordering := order (t.divider (leaf i))
    match Search.among look fromLast 0 ((t.spread.page (k + 1) j).count - 1) with
    | .empty => t.descend order fromLast k first
    | .stopped i .lt => t.descend order fromLast k (first + i + 1)
    | .stopped i .gt => t.descend order fromLast k (first + i)
    | .stopped i .eq =>
      if t.isTable then t.descend order fromLast k (first + i)
      else .stopped (t.leafStart (leaf i) - 1) .eq
    | .damaged i => .damaged (t.leafStart (leaf i) - 1)

def search (order : Entry → Option Ordering) (fromLast : Bool) (t : Tree) : Search :=
  if t.entries.isEmpty then .empty else t.descend order fromLast t.spread.top 0

def orderOfKey (key : Int) (e : Entry) : Option Ordering := some (compare e.key key)

def orderOfRecord (k : SearchKey) (e : Entry) : Option Ordering := k.compare e.record

/-- The order of entries against the place of `e`. -/
def orderOfEntry (info : Option KeyInfo) (e : Entry) : Entry → Option Ordering :=
  match info with
  | none => orderOfKey e.key
  | some info => orderOfRecord (.ofRecord info e.record)

end Tree

end QueryMachine
