/-!
Sets of row numbers that are filled, asked and drained. Numbers that were added since the last new
batch wait in a list; asking for a new batch moves them to the tested part, and draining sorts them.
-/

namespace QueryMachine

structure RowSet where
  waiting : List Int := []
  /-- The number behind which the next one is put. -/
  last : Option Int := none
  sorted : Bool := true
  draining : Bool := false
  tested : List Int := []
  batch : Int := 0
  deriving Repr, DecidableEq, Inhabited

namespace RowSet

/-- The list up to the first `t`, which is included. -/
def through (t : Int) : List Int → List Int
  | [] => []
  | x :: xs => if x = t then [x] else x :: through t xs

/-- Adds a number. While draining, what stood behind the last addition is cut off, and an addition
behind a number that is gone is lost. -/
def insert (s : RowSet) (n : Int) : RowSet :=
  match s.last with
  | none => { s with waiting := [n], last := some n }
  | some t =>
    { s with
      waiting :=
        if s.draining then
          if t ∈ s.waiting then through t s.waiting ++ [n] else s.waiting
        else s.waiting ++ [n]
      last := some n
      sorted := s.sorted && decide (t < n) }

def insertSorted (n : Int) : List Int → List Int
  | [] => [n]
  | x :: xs => if n < x then n :: x :: xs else if n = x then x :: xs else x :: insertSorted n xs

/-- The numbers of a list, each once, in order. -/
def sort (xs : List Int) : List Int := xs.foldl (fun acc n => insertSorted n acc) []

def clear (s : RowSet) : RowSet := { batch := s.batch }

/-- The smallest number, which leaves the set. -/
def next (s : RowSet) : Option Int × RowSet :=
  let s :=
    if s.draining then s
    else { s with waiting := if s.sorted then s.waiting else sort s.waiting, draining := true }
  match s.waiting with
  | [] => (none, s)
  | [n] => (some n, s.clear)
  | n :: rest => (some n, { s with waiting := rest })

/-- Whether `n` was added before this batch. -/
def test (s : RowSet) (batch n : Int) : Bool × RowSet :=
  let s :=
    if batch = s.batch then s
    else
      { s with
        tested := s.waiting ++ s.tested
        waiting := []
        last := none
        sorted := s.sorted || !s.waiting.isEmpty
        batch := batch }
  (s.tested.contains n, s)

end RowSet

end QueryMachine
