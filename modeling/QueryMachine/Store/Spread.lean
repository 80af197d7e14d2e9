/-!
How a tree is spread over pages. The leaves hold the entries; the pages of every level above hold pages
of the level below, and the highest level is the root alone. All pages of a level stand in one list, so
a page is only its number and how much it holds of the list below.
-/

namespace QueryMachine

structure Page where
  number : Nat
  /-- How many entries a leaf holds, or how many pages of the level below another page holds. -/
  count : Nat
  deriving Repr, DecidableEq, Inhabited

namespace Page

/-- Where the parts of pages start in the list below them, from `n` on, and where the last one ends. -/
def starts (n : Nat) : List Page → List Nat
  | [] => [n]
  | p :: rest => n :: starts (n + p.count) rest

/-- The page that holds item `i` of the list below. -/
def owner : List Page → Nat → Nat
  | [], _ => 0
  | p :: rest, i => if i < p.count then 0 else owner rest (i - p.count) + 1

/-- How many bytes a page has for cells, each with two bytes that point to it. The first page of a
store has its header. -/
def room (isLeaf : Bool) (number : Nat) : Nat :=
  (if isLeaf then 1016 else 1012) - if number = 1 then 100 else 0

/-- The bytes that cells of these sizes take. -/
def load (sizes : List Nat) : Nat := sizes.foldl (fun n size => n + size + 2) 0

end Page

structure Spread where
  /-- The levels, the leaves first. -/
  levels : List (List Page)
  /-- In a table, the keys between neighbouring leaves. -/
  seams : List Int := []
  deriving Repr, DecidableEq, Inhabited

namespace Spread

def single (number n : Nat) : Spread := { levels := [[⟨number, n⟩]] }

def level (s : Spread) (k : Nat) : List Page := s.levels.getD k []

def page (s : Spread) (k j : Nat) : Page := (s.level k).getD j default

def setLevel (s : Spread) (k : Nat) (pages : List Page) : Spread :=
  { s with levels := s.levels.set k pages }

/-- Changes how much a page holds. -/
def recount (s : Spread) (k j : Nat) (f : Nat → Nat) : Spread :=
  let p := s.page k j
  s.setLevel k ((s.level k).set j { p with count := f p.count })

def top (s : Spread) : Nat := s.levels.length - 1

def root (s : Spread) : Page := s.page s.top 0

/-- The first page below page `j` of a level that is not the lowest. -/
def firstBelow (s : Spread) (k j : Nat) : Nat := (Page.starts 0 (s.level k)).getD j 0

/-- The leaves with which the pages of a level start, and the number of leaves. -/
def bounds (s : Spread) : Nat → List Nat
  | 0 => List.range ((s.level 0).length + 1)
  | k + 1 => (Page.starts 0 (s.level (k + 1))).map ((s.bounds k).getD · 0)

/-- The page that holds page `j` of level `k`. -/
def parent (s : Spread) (k j : Nat) : Nat := Page.owner (s.level (k + 1)) j

/-- The level and the page with the gap before leaf `g`: the lowest page with leaves on both sides. -/
def holder (s : Spread) (g : Nat) : Nat × Nat :=
  let k := ((List.range s.top).find? fun k => !(s.bounds (k + 1)).contains g).getD s.top + 1
  (k, ((s.bounds k).filter (· ≤ g)).length - 1)

/-- The first gap of the root, said by the leaf behind it. A root that holds one page stands for that
page. -/
def firstGap? (s : Spread) : Option Nat :=
  (List.range s.top).reverse.findSome? fun k =>
    if 2 ≤ (s.page (k + 1) 0).count then (s.bounds k)[1]? else none

/-- The leaf with entry `i`, and the place of the entry there. With `gap` an entry stands between
neighbouring leaves; it counts as the one behind the entries of the left leaf. -/
def locate (gap : Nat) : List Page → Nat → Nat × Nat
  | [], i => (0, i)
  | [_], i => (0, i)
  | p :: rest, i =>
    if i < p.count + gap then (0, i)
    else
      let (j, k) := locate gap rest (i - p.count - gap)
      (j + 1, k)

end Spread

/-! ### Sharing cells out -/

namespace Page

/-- Fills page after page with cells of these sizes; answers the cells at which a new page starts. With
`keep` such a cell is the first one of its page, otherwise it stands between the pages. -/
def fill (keep : Bool) (room : Nat) : List Nat → Nat → Nat → List Nat
  | [], _, _ => []
  | size :: rest, i, used =>
    if room < used + size + 2 then
      i :: fill keep room rest (i + 1) (if keep then size + 2 else 0)
    else fill keep room rest (i + 1) (used + size + 2)

/-- Moves a cut to the left while the page on the right is empty or, without `bulk`, stays the smaller
one. -/
def moveCut (keep bulk : Bool) (sizes : Array Nat) : Nat → Nat → Nat → Nat
  | _, _, 0 => 0
  | left, right, cut + 1 =>
    let out := sizes.getD cut 0 + 2
    let into := sizes.getD (if keep then cut else cut + 1) 0 + 2
    if right = 0 || !bulk && right + into + out ≤ left then
      moveCut keep bulk sizes (left - out) (right + into) cut
    else cut + 1

/-- Evens out the pages between cuts, given from the right. -/
def even (keep bulk : Bool) (sizes : Array Nat) : Nat → List Nat → List Nat
  | _, [] => []
  | stop, cut :: rest =>
    let gap := if keep then 0 else 1
    let start := match rest with
      | [] => 0
      | c :: _ => c + gap
    let part (a b : Nat) : Nat := load (sizes.extract a b).toList
    let cut := moveCut keep bulk sizes (part start cut) (part (cut + gap) stop) cut
    cut :: even keep bulk sizes cut rest

/-- How many cells lie between cuts. -/
def widths (gap stop : Nat) : Nat → List Nat → List Nat
  | start, [] => [stop - start]
  | start, cut :: rest => (cut - start) :: widths gap stop (cut + gap) rest

/-- Shares cells of these sizes out to pages; answers how many each one gets. -/
def share (keep bulk : Bool) (room : Nat) (sizes : List Nat) : List Nat :=
  let cuts := (even keep bulk sizes.toArray sizes.length (fill keep room sizes 0 0).reverse).reverse
  widths (if keep then 0 else 1) sizes.length 0 cuts

/-- Which pages below a parent with `n` of them are shared out together with page `i`: the first one
and how many. -/
def siblings (bulk : Bool) (n i : Nat) : Nat × Nat :=
  let back := if bulk then 1 else 0
  if n < 3 then (0, n)
  else (if i = 0 then 0 else if i + 1 = n then n - 3 + back else i - 1, 3 - back)

end Page

end QueryMachine
