/-!
The pages of a store by their numbers: how many there are, and which of them are free.
-/

namespace QueryMachine

structure Space where
  /-- How many pages there are; the first one has number one. -/
  size : Nat
  /-- The free pages in groups, each behind the page that leads it. -/
  free : List (Nat × List Nat) := []
  deriving Repr, DecidableEq, Inhabited

abbrev SpaceM := StateM Space

namespace Space

/-- The most pages that one page can lead. -/
def groupSize : Nat := 248

def distance (a b : Nat) : Nat := (a - b) + (b - a)

/-- The place of the number that is closest to `near`, and of the first one if `near` is zero. -/
def closest (near : Nat) (pages : List Nat) : Nat :=
  if near = 0 then 0
  else
    (pages.zipIdx.foldl
      (fun (best : Nat × Nat) (n, i) =>
        if distance n near < distance best.1 near then (n, i) else best)
      (pages.headD 0, 0)).2

/-- Takes a page out of the first group, close to `near`; the last page of the group moves to its place.
A group without pages gives the one that leads it. Without any free page there is a new one. -/
def take (near : Nat) (s : Space) : Nat × Space :=
  match s.free with
  | [] => (s.size + 1, { s with size := s.size + 1 })
  | (lead, []) :: rest => (lead, { s with free := rest })
  | (lead, pages) :: rest =>
    let i := closest near pages
    (pages.getD i 0, { s with free := (lead, (pages.set i (pages.getLastD 0)).dropLast) :: rest })

/-- Takes `n` pages, the first one close to `near` and each one close to the one before. -/
def takeChain : Nat → Nat → SpaceM (List Nat)
  | 0, _ => return []
  | n + 1, near => do
    let page ← modifyGet (take near)
    return page :: (← takeChain n page)

/-- Gives a page back: it joins the first group, or leads a new one if that is full. -/
def release (n : Nat) (s : Space) : Space :=
  match s.free with
  | [] => { s with free := [(n, [])] }
  | (lead, pages) :: rest =>
    if pages.length < groupSize then { s with free := (lead, pages ++ [n]) :: rest }
    else { s with free := (n, []) :: s.free }

def releaseAll (pages : List Nat) (s : Space) : Space := pages.foldl (fun s n => s.release n) s

def freeCount (s : Space) : Nat := s.free.foldl (fun n (_, pages) => n + 1 + pages.length) 0

end Space

end QueryMachine
