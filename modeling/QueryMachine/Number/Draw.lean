/-!
Words that look random. Each number has a word of its own, and words of numbers that are close together
have nothing visible in common.
-/

namespace QueryMachine

/-- Spreads the bits of a word over all of it. -/
def mixWord (w : UInt64) : UInt64 :=
  let w := (w ^^^ (w >>> 30)) * 0xbf58476d1ce4e5b9
  let w := (w ^^^ (w >>> 27)) * 0x94d049bb133111eb
  w ^^^ (w >>> 31)

def drawWord (n : Nat) : Nat := (mixWord (UInt64.ofNat (n + 1) * 0x9e3779b97f4a7c15)).toNat

end QueryMachine
