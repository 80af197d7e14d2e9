/-!
Integers and the words that hold them.
-/

namespace QueryMachine

def wordToInt (w : UInt64) : Int := w.toInt64.toInt

def intToWord (n : Int) : UInt64 := UInt64.ofInt n

abbrev minWord : Int := -9223372036854775808

abbrev maxWord : Int := 9223372036854775807

def fitsWord (n : Int) : Bool := minWord ≤ n && n ≤ maxWord

/-- The integer in the 64-bit range that differs from `n` by a multiple of `2 ^ 64`. -/
def wrapWord (n : Int) : Int := Int.bmod n 18446744073709551616

/-- The integer in the 32-bit range that differs from `n` by a multiple of `2 ^ 32`. -/
def wrapHalf (n : Int) : Int := Int.bmod n 4294967296

theorem wrapWord_of_fits {n : Int} (h : fitsWord n = true) : wrapWord n = n := by
  simp only [fitsWord, minWord, maxWord, Bool.and_eq_true, decide_eq_true_eq] at h
  exact Int.bmod_eq_of_le (by omega) (by omega)

end QueryMachine
