import QueryMachine.Number.Decimal
import QueryMachine.Number.Word

/-!
Numbers of variable length: seven bits in each byte, the highest first, and a mark on every byte but
the last. A ninth byte holds eight bits, so that nine bytes hold every 64-bit word.
-/

namespace QueryMachine.Varint

/-- How many groups of seven bits a number has, and at least one. -/
def length (n : Nat) : Nat := if n < 128 then 1 else 1 + length (n / 128)
termination_by n
decreasing_by omega

/-- The groups of seven bits, the last one without its mark. -/
def groups (n : Nat) : Bytes :=
  if n < 128 then [n.toUInt8] else groups (n / 128) ++ [(n % 128).toUInt8]
termination_by n
decreasing_by omega

/-- Marks every byte but the last. -/
def mark : Bytes → Bytes
  | [] => []
  | [b] => [b]
  | b :: rest => (b ||| 128) :: mark rest

/-- The written form of a number below `2 ^ 64`. -/
def encode (n : Nat) : Bytes :=
  if n < 72057594037927936 then mark (groups n)
  else ((groups (n / 256)).leftpad 8 0).map (· ||| 128) ++ [(n % 256).toUInt8]

/-- A zeroed buffer of `size` bytes with a number at a place. -/
def place (size n : Nat) (at_ : Nat) : Bytes :=
  (List.replicate at_ 0 ++ encode n ++ List.replicate size 0).take size

/-- Reads at most `fuel` more bytes of seven bits, then one of eight. -/
def decodeFrom : Nat → Nat → Bytes → Nat × Bytes
  | _, acc, [] => (acc, [])
  | 0, acc, b :: rest => (acc * 256 + b.toNat, rest)
  | fuel + 1, acc, b :: rest =>
    if b < 128 then (acc * 128 + b.toNat, rest)
    else decodeFrom fuel (acc * 128 + (b.toNat - 128)) rest

/-- The number at the start of `bytes` and the bytes after it. -/
def decode (bytes : Bytes) : Nat × Bytes := decodeFrom 8 0 bytes

/-- The number at a place, kept below `2 ^ 32`, and the place behind it. -/
def decodeAt (bytes : Bytes) (place : Nat) : Nat × Nat :=
  let (n, rest) := decode (bytes.drop place)
  (min n 4294967295, bytes.length - rest.length)

end QueryMachine.Varint
