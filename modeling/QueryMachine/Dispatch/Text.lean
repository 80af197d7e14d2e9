/-!
Lines of program text, seen as lists of characters, and the few patterns that are looked for in them.
-/

namespace QueryMachine.Dispatch

/-- Blank characters, as in text patterns. -/
def isBlank (c : Char) : Bool :=
  let n := c.toNat
  (9 ≤ n && n ≤ 13) || (28 ≤ n && n ≤ 32) || n == 0x85 || n == 0xa0 || n == 0x1680 ||
    (0x2000 ≤ n && n ≤ 0x200a) || n == 0x2028 || n == 0x2029 || n == 0x202f || n == 0x205f ||
    n == 0x3000

/-- The text behind `pre`, if `s` starts with it. -/
def dropWord? : List Char → List Char → Option (List Char)
  | [], s => some s
  | _ :: _, [] => none
  | p :: pre, c :: s => if p = c then dropWord? pre s else none

def startsWith (pre : String) (s : List Char) : Bool := (dropWord? pre.toList s).isSome

/-- The first suffix of `s` on which `p` gives something. -/
def search? {α : Type} (p : List Char → Option α) : List Char → Option α
  | [] => p []
  | c :: s => (p (c :: s)).orElse fun _ => search? p s

def contains (word : String) (s : List Char) : Bool := (search? (dropWord? word.toList) s).isSome

def skipBlanks (s : List Char) : List Char := s.dropWhile isBlank

/-- What follows one blank or more. -/
def blanks? (s : List Char) : Option (List Char) :=
  match s with
  | [] => none
  | c :: _ => if isBlank c then some (skipBlanks s) else none

/-- The part of `s` before the last character that satisfies `p`, all of it on the first line. -/
def beforeLast (p : Char → Bool) : List Char → Option (List Char)
  | [] => none
  | c :: s =>
    let later := if c = '\n' then none else beforeLast p s
    match later with
    | some t => some (c :: t)
    | none => if p c then some [] else none

end QueryMachine.Dispatch
