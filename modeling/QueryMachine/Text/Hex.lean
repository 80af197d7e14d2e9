import QueryMachine.Number.Decimal

/-!
Bytes written with two digits of base sixteen each.
-/

namespace QueryMachine.Hex

/-- The digit for a number below sixteen; `letter` is the digit for ten. -/
def digit (letter : UInt8) (n : Nat) : UInt8 :=
  if n < 10 then UInt8.ofNat (48 + n) else letter + UInt8.ofNat (n - 10)

/-- The digits of a string, with letters from `letter` on. -/
def encode (letter : UInt8) (b : Bytes) : Bytes :=
  b.flatMap fun c => [digit letter (c.toNat / 16), digit letter (c.toNat % 16)]

def digit? (c : UInt8) : Option Nat :=
  if 48 ≤ c && c ≤ 57 then some (c.toNat - 48)
  else if 97 ≤ c && c ≤ 102 then some (c.toNat - 87)
  else if 65 ≤ c && c ≤ 70 then some (c.toNat - 55)
  else none

/-- The string with these digits, large or small. -/
def decode? : Bytes → Option Bytes
  | [] => some []
  | [_] => none
  | a :: b :: rest => do
    let x ← digit? a
    let y ← digit? b
    return UInt8.ofNat (16 * x + y) :: (← decode? rest)

end QueryMachine.Hex
