import QueryMachine.Text.Utf8

/-!
Patterns with wildcards: one sign stands for any text, one for any character, and in some styles a
bracket opens a set of characters.
-/

namespace QueryMachine.Pattern

structure Style where
  /-- Stands for any text. -/
  all : Nat
  /-- Stands for any character. -/
  one : Nat
  /-- Opens a set of characters; zero if there are no sets. -/
  set : Nat
  foldCase : Bool
  deriving Repr, DecidableEq, Inhabited

/-- Percent signs and underscores, without regard to case. -/
def like : Style := ⟨37, 95, 0, true⟩

/-- Stars, question marks and sets in square brackets. -/
def glob : Style := ⟨42, 63, 91, false⟩

def lower (c : Nat) : Nat := if 65 ≤ c && c ≤ 90 then c + 32 else c

def upper (c : Nat) : Nat := if 97 ≤ c && c ≤ 122 then c - 32 else c

/-- Whether a character of the text is the one that the pattern asks for. -/
def sameChar (s : Style) (c d : Nat) : Bool :=
  c == d || s.foldCase && c < 0x80 && d < 0x80 && lower c == lower d

/-- The texts behind each byte that satisfies `p`. -/
def behindBytes (p : UInt8 → Bool) : Bytes → List Bytes
  | [] => []
  | b :: rest => if p b then rest :: behindBytes p rest else behindBytes p rest

/-- The texts that start with each character. -/
def starts (text : Bytes) : List Bytes :=
  let chars := Utf8.chars text
  (List.range chars.length).map fun i => (chars.drop i).flatten

/-- Goes over wildcards behind one for any text; every wildcard for a character takes one from the
text. Answers the pattern and the text that are left. -/
def skipWildcards (s : Style) : Nat → Bytes → Bytes → Option (Bytes × Bytes)
  | 0, pattern, text => some (pattern, text)
  | fuel + 1, pattern, text =>
    let (c, rest) := Utf8.read pattern
    if c = 0 then some (pattern, text)
    else if c = s.all then skipWildcards s fuel rest text
    else if c = s.one then
      if text.isEmpty then none else skipWildcards s fuel rest (Utf8.read text).2
    else some (pattern, text)

/-- Reads the members of a set up to the closing bracket; answers whether `c` is one of them, and the
pattern behind the bracket. `prior` is the lower end of a range, if there can be one. -/
def readSet (c : Nat) : Nat → Bytes → Nat → Bool → Option (Bool × Bytes)
  | 0, _, _, _ => none
  | fuel + 1, pattern, prior, seen =>
    let (d, rest) := Utf8.read pattern
    if d = 0 then none
    else if d = 93 then some (seen, rest)
    else
      match d = 45 && 0 < prior, rest with
      | true, next :: _ =>
        if next != 93 then
          let (hi, rest) := Utf8.read rest
          readSet c fuel rest 0 (seen || prior ≤ c && c ≤ hi)
        else readSet c fuel rest d (seen || c == d)
      | _, _ => readSet c fuel rest d (seen || c == d)

/-- Whether a set has the character `c`, and the pattern behind the set. -/
def inSet (c : Nat) (pattern : Bytes) : Option (Bool × Bytes) :=
  let (d, rest) := Utf8.read pattern
  let (invert, pattern) := if d = 94 then (true, rest) else (false, pattern)
  let (d, rest) := Utf8.read pattern
  let (seen, pattern) := if d = 93 then (c == 93, rest) else (false, pattern)
  (readSet c (pattern.length + 1) pattern 0 seen).map fun (seen, rest) => (seen != invert, rest)

/-- Whether a text matches a pattern that is shorter than `fuel`. The sign `escape` takes its meaning
from the next one. -/
def matchFrom (s : Style) (escape : Nat) : Nat → Bytes → Bytes → Bool
  | 0, _, _ => false
  | fuel + 1, pattern, text =>
    let special (c : Nat) : Bool := if escape = 0 then c == s.set && s.set != 0 else c == escape
    let (c, rest) := Utf8.read pattern
    if c = 0 then text.isEmpty
    else if c = s.all then
      match skipWildcards s fuel rest text with
      | none => false
      | some (pattern, text) =>
        let (c, rest) := Utf8.read pattern
        if c = 0 then true
        else if special c && escape = 0 then (starts text).any (matchFrom s escape fuel pattern)
        else
          let (c, rest) := if special c then Utf8.read rest else (c, rest)
          if c = 0 then false
          else if c ≤ 0x80 then
            let wanted (b : UInt8) : Bool :=
              b.toNat == c || s.foldCase && (b.toNat == lower c || b.toNat == upper c)
            (behindBytes wanted text).any (matchFrom s escape fuel rest)
          else
            ((starts text).filter fun t => (Utf8.read t).1 == c).any fun t =>
              matchFrom s escape fuel rest (Utf8.read t).2
    else if special c && escape = 0 then
      match Utf8.read text with
      | (0, _) => false
      | (d, text) =>
        match inSet d rest with
        | some (true, rest) => matchFrom s escape fuel rest text
        | _ => false
    else
      let escaped := special c
      let (c, rest) := if escaped then Utf8.read rest else (c, rest)
      let (d, text) := Utf8.read text
      if c = 0 then false
      else if sameChar s c d || c == s.one && !escaped && d != 0 then matchFrom s escape fuel rest text
      else false

def isMatch (s : Style) (escape : Nat) (pattern text : Bytes) : Bool :=
  matchFrom s escape (pattern.length + 1) pattern.untilZero text.untilZero

end QueryMachine.Pattern
