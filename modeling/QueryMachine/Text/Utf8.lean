import QueryMachine.Text.Collation

/-!
Texts as characters. A lead byte takes all the continuation bytes behind it along, every other byte is
a character of its own. A text ends before its first zero byte.
-/

namespace QueryMachine

def Bytes.untilZero (b : Bytes) : Bytes := b.takeWhile (· != 0)

namespace Utf8

def isLead (b : UInt8) : Bool := 0xc0 ≤ b

def isContinuation (b : UInt8) : Bool := 0x80 ≤ b && b < 0xc0

/-- The bytes of the first character that follow the byte `b`, and the bytes behind it. -/
def split (b : UInt8) (rest : Bytes) : Bytes × Bytes :=
  if isLead b then (rest.takeWhile isContinuation, rest.dropWhile isContinuation) else ([], rest)

theorem length_split_snd_le (b : UInt8) (rest : Bytes) : (split b rest).2.length ≤ rest.length := by
  unfold split
  split
  · exact (List.dropWhile_sublist _).length_le
  · exact Nat.le_refl _

def chars : Bytes → List Bytes
  | [] => []
  | b :: rest => (b :: (split b rest).1) :: chars (split b rest).2
termination_by text => text.length
decreasing_by exact Nat.lt_succ_of_le (length_split_snd_le b rest)

/-- The bits of the code point that a lead byte holds. -/
def leadBits (b : UInt8) : Nat :=
  if b < 0xe0 then b.toNat - 0xc0
  else if b < 0xf0 then b.toNat - 0xe0
  else if b < 0xf8 then b.toNat - 0xf0
  else if b < 0xfc then b.toNat - 0xf8
  else if b < 0xfe then b.toNat - 0xfc
  else 0

/-- The code point of a character. One that is too small for its form, half of a pair or no
character stands for an unknown one. -/
def codePoint (b : UInt8) (more : Bytes) : Nat :=
  if isLead b then
    let c := more.foldl (fun c d => (c * 64 + d.toNat % 64) % 4294967296) (leadBits b)
    if c < 0x80 || c / 2048 = 0xd800 / 2048 || c / 2 = 0xfffe / 2 then 0xfffd else c
  else b.toNat

/-- The first code point of a text and the rest; zero at the end. -/
def read : Bytes → Nat × Bytes
  | [] => (0, [])
  | b :: rest => (codePoint b (split b rest).1, (split b rest).2)

/-- The last six bits of `c / 2 ^ shift` in a continuation byte. -/
def continuation (c shift : Nat) : UInt8 := UInt8.ofNat (0x80 + c / Nat.pow 2 shift % 64)

/-- The bytes of a code point below `2 ^ 21`. -/
def encode (c : Nat) : Bytes :=
  if c < 0x80 then [UInt8.ofNat c]
  else if c < 0x800 then [UInt8.ofNat (0xc0 + c / 64), continuation c 0]
  else if c < 0x10000 then [UInt8.ofNat (0xe0 + c / 4096), continuation c 6, continuation c 0]
  else [UInt8.ofNat (0xf0 + c / 262144), continuation c 12, continuation c 6, continuation c 0]

end Utf8

end QueryMachine
