import QueryMachine.Number.Decimal

/-!
Doubles in twelve significant digits, the last one rounded to nearest and a tie to even.
-/

namespace QueryMachine.Decimal

/-- The quotient rounded to the nearest integer, a tie to the even one. -/
def roundDiv (num den : Nat) : Nat :=
  let q := num / den
  let r := num % den
  if den < 2 * r || (2 * r = den && q % 2 = 1) then q + 1 else q

/-- The power of ten just below or at a positive fraction. -/
def powerBelow (num den : Nat) : Int :=
  if den ≤ num then (toString (num / den)).length - 1
  else
    let l := (toString (den / num)).length
    if den ≤ num * Nat.pow 10 (l - 1) then -((l : Int) - 1) else -(l : Int)

/-- The first `digits` digits of a positive fraction and the power of ten of the first. -/
def leadingDigits (digits num den : Nat) : Nat × Int :=
  let e := powerBelow num den
  let shift := (digits : Int) - 1 - e
  let q :=
    if 0 ≤ shift then roundDiv (num * Nat.pow 10 shift.toNat) den
    else roundDiv num (den * Nat.pow 10 (-shift).toNat)
  if q = Nat.pow 10 digits then (Nat.pow 10 (digits - 1), e + 1) else (q, e)

def dropTrailingZeros (s : List Char) : List Char := (s.reverse.dropWhile (· == '0')).reverse

/-- Digits with a point after the first `n` of them. -/
def placePoint (n : Nat) (digits : List Char) : List Char :=
  if digits.length ≤ n then digits ++ List.replicate (n - digits.length) '0' ++ ['.', '0']
  else digits.take n ++ '.' :: digits.drop n

def shortMagnitude (x : Double) : List Char :=
  let s := x.scaled
  if s.mant = 0 then ['0', '.', '0']
  else
    let num := if 0 ≤ s.exp then s.mant * Nat.pow 2 s.exp.toNat else s.mant
    let den := if 0 ≤ s.exp then 1 else Nat.pow 2 (-s.exp).toNat
    let (q, e) := leadingDigits 12 num den
    let digits := dropTrailingZeros (toString q).toList
    if e < -4 || 12 ≤ e then
      let mantissa := if digits.length ≤ 1 then digits else placePoint 1 digits
      let power := (toString e.natAbs).toList
      mantissa ++ 'e' :: (if e < 0 then '-' else '+') ::
        (if power.length < 2 then '0' :: power else power)
    else if e < 0 then '0' :: '.' :: List.replicate (-e - 1).toNat '0' ++ digits
    else placePoint (e.toNat + 1) digits

def short (x : Double) : String :=
  if x.isNaN then "nan"
  else
    let magnitude := if x.isInf then "inf".toList else shortMagnitude x
    String.ofList (if x.neg then '-' :: magnitude else magnitude)

end QueryMachine.Decimal
