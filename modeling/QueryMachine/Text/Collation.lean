import QueryMachine.Number.Decimal

/-!
Orders on byte strings. Every collation compares two texts byte by byte; they differ in what they
ignore.
-/

namespace QueryMachine

namespace Bytes

/-- The order of the first bytes that differ; nothing if one string ends before. -/
def compareCommon : Bytes → Bytes → Ordering
  | a :: as, b :: bs => (compare a.toNat b.toNat).then (compareCommon as bs)
  | _, _ => .eq

/-- The dictionary order: what is a beginning of the other comes first. -/
def compare (a b : Bytes) : Ordering :=
  (compareCommon a b).then (Ord.compare a.length b.length)

/-- Small letters for the capitals from A to Z. -/
def lowerByte (c : UInt8) : UInt8 := if 65 ≤ c && c ≤ 90 then c + 32 else c

def upperByte (c : UInt8) : UInt8 := if 97 ≤ c && c ≤ 122 then c - 32 else c

/-- Like `compareCommon` without regard to case; nothing is compared behind a zero byte. -/
def compareFolded : Bytes → Bytes → Ordering
  | a :: as, b :: bs =>
    if a != 0 && lowerByte a == lowerByte b then compareFolded as bs
    else Ord.compare (lowerByte a).toNat (lowerByte b).toNat
  | _, _ => .eq

def allSpaces (a : Bytes) : Bool := a.all (· == 32)

end Bytes

inductive Collation
  | binary
  | nocase
  | rtrim
  deriving Repr, DecidableEq, Inhabited

namespace Collation

def name : Collation → String
  | .binary => "BINARY"
  | .nocase => "NOCASE"
  | .rtrim => "RTRIM"

def ofName? : String → Option Collation
  | "BINARY" => some .binary
  | "NOCASE" => some .nocase
  | "RTRIM" => some .rtrim
  | _ => none

def compare : Collation → Bytes → Bytes → Ordering
  | .binary, a, b => a.compare b
  | .nocase, a, b => (a.compareFolded b).then (Ord.compare a.length b.length)
  | .rtrim, a, b =>
    (a.compareCommon b).then <|
      if Bytes.allSpaces (a.drop b.length) && Bytes.allSpaces (b.drop a.length) then .eq
      else Ord.compare a.length b.length

end Collation

end QueryMachine
