import QueryMachine.Store.Space
import QueryMachine.Store.Tree

/-!
Changes of trees. A page that gets too full or too empty shares what it holds with its neighbours, and
the page above it may do so in turn. The entries keep their order; only the pages change.
-/

namespace QueryMachine.Tree

/-! ### Sizes -/

/-- The bytes of a number of variable length, as a 64-bit word. -/
def wordSize (n : Int) : Nat := min 9 (Varint.length (n % 18446744073709551616).toNat)

/-- The bytes of a record on a page: its length, the row number in a table, and the part that lies
there, with the number of the page that goes on. -/
def recordSize (t : Tree) (e : Entry) : Nat :=
  let n := e.record.length
  let here := t.localSize n
  wordSize n + (if t.isTable then wordSize e.key else 0) + here + if here < n then 4 else 0

def leafSize (t : Tree) (e : Entry) : Nat := max 4 (t.recordSize e)

def innerSize (t : Tree) (e : Entry) : Nat :=
  4 + if t.isTable then wordSize e.key else t.recordSize e

/-- The sizes of the cells on `n` pages of a level from page `j` on, and between them. -/
def cellSizes (t : Tree) (j n : Nat) : Nat → List Nat
  | 0 =>
    let start := t.leafStart j
    let stop := t.leafStart (j + n) - t.gap
    ((t.entries.drop start).take (stop - start)).map t.leafSize
  | k + 1 =>
    let first := t.spread.firstBelow (k + 1) j
    let stop := t.spread.firstBelow (k + 1) (j + n)
    (List.range (stop - first - 1)).map fun i =>
      t.innerSize (t.divider ((t.spread.bounds k).getD (first + i + 1) 0))

/-- The bytes that a page holds. -/
def used (t : Tree) (k j : Nat) : Nat := Page.load (t.cellSizes j 1 k)

/-- The bytes that a page can hold. -/
def room (t : Tree) (k j : Nat) : Nat := Page.room (k = 0) (t.spread.page k j).number

/-! ### Balance -/

/-- Puts a page between the root and what it holds. -/
def deepen (t : Tree) : SpaceM Tree := do
  let s := t.spread
  let n ← modifyGet (Space.take t.root)
  let below := { s.root with number := n }
  return { t with spread := { s with levels := s.levels.dropLast ++ [[below], [⟨t.root, 1⟩]] } }

/-- Puts the last entry of a leaf on a leaf of its own. -/
def splitLast (j : Nat) (t : Tree) : SpaceM Tree := do
  let n ← modifyGet (Space.take 0)
  let s := (t.spread.recount 0 j (· - 1)).recount 1 (t.spread.parent 0 j) (· + 1)
  let seam := (t.entry (t.leafStart j + (s.page 0 j).count - 1)).key
  return { t with
    spread :=
      { s.setLevel 0 ((s.level 0).insertIdx (j + 1) ⟨n, 1⟩) with seams := s.seams.insertIdx j seam } }

/-- Numbers for `n` pages in place of old ones, which are used again as far as they go. -/
def renumber (bulk : Bool) (n : Nat) (old : List Nat) : SpaceM (List Nat) := do
  let more := n - old.length
  let new ←
    if bulk then (List.replicate more ()).mapM fun _ => modifyGet (Space.take 1)
    else Space.takeChain more (old.headD 0)
  return (old.take n ++ new).mergeSort

/-- The keys of the last entries of leaves that hold so many entries from `start` on, without the last
leaf. -/
def seamKeys (t : Tree) (start : Nat) : List Nat → List Int
  | [] => []
  | [_] => []
  | n :: rest => (t.entry (start + n - 1)).key :: t.seamKeys (start + n) rest

/-- Shares the cells of a page and its neighbours out anew. A root that is left with one page takes what
that holds, if it has room for it. -/
def regroup (bulk : Bool) (k j : Nat) (t : Tree) : SpaceM Tree := do
  let s := t.spread
  let q := s.parent k j
  let first := s.firstBelow (k + 1) q
  let (i, n) := Page.siblings bulk (s.page (k + 1) q).count (j - first)
  let lo := first + i
  let keep := k = 0 && t.isTable
  let counts := Page.share keep bulk (Page.room (k = 0) 0) (t.cellSizes lo n k)
  let old := (((s.level k).drop lo).take n).map (·.number)
  let numbers ← renumber bulk counts.length old
  let pages := List.zipWith (fun number c => ⟨number, if k = 0 then c else c + 1⟩) numbers counts
  let seams :=
    if keep then
      s.seams.take lo ++ t.seamKeys (t.leafStart lo) counts ++ s.seams.drop (lo + n - 1)
    else s.seams
  let s := s.setLevel k ((s.level k).take lo ++ pages ++ (s.level k).drop (lo + n))
  let s := { s.recount (k + 1) q (· + counts.length - n) with seams }
  let t := { t with spread := s }
  let joins := k + 1 = s.top && s.root.count = 1 && t.used k 0 ≤ Page.room (k = 0) t.root
  let t := if joins then
      { t with spread := { s with levels := s.levels.take k ++ [[{ s.page k 0 with number := t.root }]] } }
    else t
  if joins then modify (Space.release (s.page k 0).number)
  modify (Space.releaseAll (old.drop counts.length))
  return t

/-- Balances page `j` of level `k` and the pages above it, until one is neither too full nor too empty;
answers the level of that one. With `last` the page got too full by its last entry. -/
def balance (bulk : Bool) : Nat → Bool → Nat → Nat → Tree → SpaceM (Nat × Tree)
  | 0, _, k, _, t => return (k, t)
  | fuel + 1, last, k, j, t => do
    let s := t.spread
    let full := t.room k j < t.used k j
    if s.top ≤ k then
      if full then balance bulk fuel last k 0 (← deepen t) else return (k, t)
    else if !full && t.room k j - t.used k j ≤ 682 then return (k, t)
    else
      let q := s.parent k j
      let above := s.page (k + 1) q
      let isLast := j + 1 = s.firstBelow (k + 1) q + above.count
      let t ←
        if last && full && isLast && above.number != 1 && k = 0 && t.isTable then t.splitLast j
        else t.regroup bulk k j
      balance bulk fuel false (k + 1) q t

/-- Enough steps for `balance`: each one goes up a level, after one that may put in a level. -/
def steps (t : Tree) : Nat := t.spread.levels.length + 2

/-! ### Entries -/

/-- An entry with the pages that hold the rest of its record. -/
def placed (t : Tree) (e : Entry) : SpaceM Entry := do
  let rest := e.record.length - t.localSize e.record.length
  return { e with spill := ← Space.takeChain ((rest + 1019) / 1020) 0 }

/-- Balances a page if it is too full; answers whether it was. -/
def relieve (bulk last : Bool) (k j : Nat) (t : Tree) : SpaceM (Tree × Bool) := do
  if t.room k j < t.used k j then return ((← t.balance bulk t.steps last k j).2, true)
  else return (t, false)

def replace (bulk : Bool) (i : Nat) (e : Entry) (t : Tree) : SpaceM (Tree × Bool) := do
  let e ← t.placed e
  modify (Space.releaseAll (t.entry i).spill)
  let t := { t with entries := t.entries.set i e }
  let (j, p) := Spread.locate t.gap (t.spread.level 0) i
  let n := (t.spread.page 0 j).count
  if p < n then t.relieve bulk (p + 1 = n) 0 j
  else
    let (k, q) := t.spread.holder (j + 1)
    t.relieve bulk false k q

/-- Puts an entry beside entry `i` on its leaf, before it or behind it. -/
def insertBeside (bulk before : Bool) (i : Nat) (e : Entry) (t : Tree) : SpaceM (Tree × Bool) := do
  let e ← t.placed e
  let (j, p) := Spread.locate t.gap (t.spread.level 0) i
  let n := (t.spread.page 0 j).count
  let later := if before then 0 else 1
  let t := { t with
    entries := t.entries.insertIdx (i + later) e
    spread := t.spread.recount 0 j (· + 1) }
  t.relieve bulk (p + later = n) 0 j

/-- Removes entry `i`. One that stood between two leaves is replaced by the one before it. -/
def erase (bulk : Bool) (i : Nat) (t : Tree) : SpaceM Tree := do
  modify (Space.releaseAll (t.entry i).spill)
  let (j, p) := Spread.locate t.gap (t.spread.level 0) i
  let n := (t.spread.page 0 j).count
  let t := { t with
    entries := t.entries.eraseIdx i
    spread := t.spread.recount 0 j (· - 1) }
  if p < n then return (← t.balance bulk t.steps false 0 j).2
  else
    let (k, q) := t.spread.holder (j + 1)
    let (reached, t) ← t.balance bulk t.steps false 0 j
    if reached < k then return (← t.balance bulk t.steps false k q).2 else return t

/-- Removes the entry before leaf `j` of a table. The length of its record becomes the key between the
leaves. -/
def eraseBefore (bulk : Bool) (j : Nat) (t : Tree) : SpaceM Tree := do
  let i := t.leafStart j - 1
  let (k, q) := t.spread.holder j
  let s := t.spread.recount 0 (j - 1) (· - 1)
  let t := { t with
    entries := t.entries.eraseIdx i
    spread := { s with seams := s.seams.set (j - 1) (t.entry i).record.length } }
  let (reached, t) ← t.balance bulk t.steps false 0 (j - 1)
  if reached < k then return (← t.balance bulk t.steps false k q).2 else return t

/-- The pages below a page, in the order in which they are given back. -/
def pagesBelow (t : Tree) : Nat → Nat → List Nat
  | 0, j =>
    ((t.entries.drop (t.leafStart j)).take (t.spread.page 0 j).count).flatMap (·.spill)
  | k + 1, j =>
    let first := t.spread.firstBelow (k + 1) j
    let n := (t.spread.page (k + 1) j).count
    (List.range n).flatMap fun i =>
      t.pagesBelow k (first + i) ++ (t.spread.page k (first + i)).number ::
        if i + 1 < n then (t.divider ((t.spread.bounds k).getD (first + i + 1) 0)).spill else []

def clear (t : Tree) : SpaceM Tree := do
  modify (Space.releaseAll (t.pagesBelow t.spread.top 0))
  return empty t.isTable t.root

end QueryMachine.Tree
