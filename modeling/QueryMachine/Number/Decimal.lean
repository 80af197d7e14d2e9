import QueryMachine.Number.Double

/-!
Decimal text: reading the number at the start of some bytes, and writing numbers. A real is read
and written through extended numbers, so the last digit can differ from the nearest one.
-/

namespace QueryMachine

abbrev Bytes := List UInt8

def Bytes.ofString (s : String) : Bytes := s.toUTF8.toList

namespace Decimal

def isSpace (c : UInt8) : Bool := c == 32 || (9 ≤ c && c ≤ 13)

def isDigit (c : UInt8) : Bool := 48 ≤ c && c ≤ 57

def digit (c : UInt8) : Nat := c.toNat - 48

/-- Splits off a sign: whether it was a minus, and the bytes after it. -/
def splitSign : Bytes → Bool × Bytes
  | 45 :: rest => (true, rest)
  | 43 :: rest => (false, rest)
  | rest => (false, rest)

/-! ### Integers -/

/-- How a text reads as a 64-bit integer. -/
inductive Fit
  | exact
  /-- The text is no integer, or one that does not fit. -/
  | inexact
  | justAbove
  deriving Repr, DecidableEq

structure IntReading where
  value : Int
  fit : Fit
  deriving Repr, DecidableEq

/-- Reads the digits at the start, modulo `2 ^ 64`, and holds the result inside the signed range. -/
def readInt (bytes : Bytes) : IntReading :=
  let (neg, body) := splitSign (bytes.dropWhile isSpace)
  let sig := body.dropWhile (· == 48)
  let digits := sig.takeWhile isDigit
  let rest := sig.dropWhile isDigit
  let u := digits.foldl (fun u c => (u * 10 + digit c) % 18446744073709551616) 0
  let value : Int :=
    if maxWord < u then (if neg then minWord else maxWord) else if neg then -(u : Int) else u
  let junk := match rest with
    | [] => false
    | c :: _ => c != 0
  let fit :=
    if junk || (digits.isEmpty && body.length == sig.length) || 19 < digits.length then .inexact
    else if digits.length < 19 then .exact
    else if u ≤ maxWord then .exact
    else if u = maxWord + 1 then (if neg then .exact else .justAbove)
    else .inexact
  ⟨value, fit⟩

/-! ### Reals -/

structure RealReading where
  value : Double
  /-- Whether the whole text is one number. -/
  whole : Bool
  deriving Repr, DecidableEq

/-- Digits are gathered while the significand stays below this. -/
def significandLimit : Nat := 922337203685477579

/-- Multiplies the significand by ten while it stays small and the exponent lasts. -/
def absorbUp : Nat → Nat → Nat × Nat
  | s, 0 => (s, 0)
  | s, e + 1 => if s < 922337203685477580 then absorbUp (s * 10) e else (s, e + 1)

/-- Removes trailing zeros of the significand while the exponent lasts. -/
def absorbDown : Nat → Nat → Nat × Nat
  | s, 0 => (s, 0)
  | s, e + 1 => if s % 10 = 0 then absorbDown (s / 10) e else (s, e + 1)

/-- The extended power of ten got by multiplying by `1e22` and `10`. -/
def powerOfTen (big small : Nat) : Scaled :=
  let ten := Scaled.ofNat 10
  let one := Nat.repeat (Extended.mul · ten) small (Scaled.ofNat 1)
  Nat.repeat (Extended.mul · (Scaled.ofNat (Nat.pow 10 22))) big one

/-- The double for `s * 10 ^ e` or, with `down`, for `s / 10 ^ e`. -/
def scaleTen (neg : Bool) (s : Nat) (down : Bool) (e : Nat) : Double :=
  if e = 0 then .ofScaled neg (.ofNat s)
  else if 342 ≤ e then (if down then .ofMagnitude neg 0 else .inf neg)
  else
    let apply (scale : Scaled) : Double := .ofScaled neg
      (if down then Extended.div (.ofNat s) scale else Extended.mul (.ofNat s) scale)
    if 307 < e then
      let x := apply (powerOfTen 0 (e - 308))
      let big := Double.ofDecimal false 1 308
      if down then x.div big else x.mul big
    else apply (powerOfTen (e / 22) (e % 22))

/-- The exponent after an `e`: its value, whether it has digits, and the bytes after it. -/
def readExponent (bytes : Bytes) : Int × Bool × Bytes :=
  let (neg, body) := splitSign bytes
  let digits := body.takeWhile isDigit
  let e : Nat := digits.foldl (fun e c => if e < 10000 then e * 10 + digit c else 10000) 0
  (if neg then -(e : Int) else e, !digits.isEmpty, body.dropWhile isDigit)

def readReal (bytes : Bytes) : RealReading :=
  let (neg, body) := splitSign (bytes.dropWhile isSpace)
  let ints := body.takeWhile isDigit
  let afterInts := body.dropWhile isDigit
  let (s, d) := ints.foldl
    (fun (s, d) c => if s < significandLimit then (s * 10 + digit c, d) else (s, d + 1))
    ((0, 0) : Nat × Int)
  let (fracs, afterFrac) := match afterInts with
    | 46 :: rest => (rest.takeWhile isDigit, rest.dropWhile isDigit)
    | rest => ([], rest)
  let (s, d) := fracs.foldl
    (fun (s, d) c => if s < significandLimit then (s * 10 + digit c, d - 1) else (s, d)) (s, d)
  let nDigits := ints.length + fracs.length
  let (e, valid, rest) := match afterFrac with
    | c :: rest => if c == 101 || c == 69 then readExponent rest else (0, true, c :: rest)
    | [] => (0, true, [])
  let rest := if 0 < nDigits && valid then rest.dropWhile isSpace else rest
  let e := e + d
  let value :=
    if s = 0 then .ofMagnitude (neg && 0 < nDigits) 0
    else
      let (s, n) := if e < 0 then absorbDown s (-e).toNat else absorbUp s e.toNat
      scaleTen neg s (e < 0) n
  ⟨value, rest.isEmpty && 0 < nDigits && valid⟩

/-! ### Writing -/

def ofInt (n : Int) : Bytes := Bytes.ofString (toString n)

/-- Raises `(scale, exp)` by `step`, `k` powers of ten at a time, while the value is not below. -/
def climb (value step : Scaled) (k : Nat) : Nat → Scaled × Int → Scaled × Int
  | 0, p => p
  | fuel + 1, (scale, exp) =>
    let next := Extended.mul step scale
    if next.le value && exp ≤ 350 then climb value step k fuel (next, exp + k) else (scale, exp)

/-- Multiplies the value by `10 ^ k` while it is below `bound`. -/
def lift (bound : Scaled) (k : Nat) : Nat → Scaled × Int → Scaled × Int
  | 0, p => p
  | fuel + 1, (value, exp) =>
    if value.lt bound then
      lift bound k fuel (Extended.mul value (.ofNat (Nat.pow 10 k)), exp - k)
    else (value, exp)

/-- The exact value of the double nearest to `10 ^ e`. -/
def tenDouble (e : Int) : Scaled := (Double.ofDecimal false 1 e).scaled

/-- A positive value as one between one and ten, times a power of ten. -/
def normalize (x : Scaled) : Scaled × Int :=
  let p := climb x (tenDouble 100) 100 400 (.ofNat 1, 0)
  let p := climb x (tenDouble 64) 64 400 p
  let p := climb x (.ofNat 100000000) 8 400 p
  let (scale, exp) := climb x (.ofNat 10) 1 400 p
  lift (.ofNat 1) 1 400 (lift (tenDouble (-8)) 8 400 (Extended.div x scale, exp))

/-- The next `n` digits of a value below ten; after `avail` digits only zeros come. -/
def takeDigits : Nat → Nat → Scaled → Bytes × Nat × Scaled
  | 0, avail, x => ([], avail, x)
  | n + 1, 0, x => (List.replicate (n + 1) 48, 0, x)
  | n + 1, avail + 1, x =>
    let d := x.floor
    let (ds, avail, x) := takeDigits n avail (Extended.mul (Extended.sub x (.ofNat d)) (.ofNat 10))
    (UInt8.ofNat (48 + d) :: ds, avail, x)

inductive Style
  /-- A fixed number of digits after the point. -/
  | fixed
  /-- A number of significant digits, without trailing zeros, with an exponent where needed. -/
  | general
  /-- One digit before the point, a number of digits after it, and an exponent. -/
  | exponential
  deriving Repr, DecidableEq

structure RealForm where
  style : Style
  precision : Nat
  /-- Up to 26 digits come from the value, not 16; a point is always written with a digit behind it,
  and trailing zeros are not written. -/
  wide : Bool := false
  /-- A point is always written, and trailing zeros are. -/
  full : Bool := false
  /-- The letter of the exponent is large. -/
  upper : Bool := false
  deriving Repr, DecidableEq

/-- Half a unit after `n` digits, got by repeated multiplication. It is zero long before the limit on
the number of steps. -/
def halfUnit (n : Nat) : Scaled :=
  (Nat.repeat (Double.mul · (Double.ofDecimal false 1 (-1))) (min n 400)
    (Double.ofDecimal false 5 (-1))).scaled

def exponentSuffix (letter : UInt8) (exp : Int) : Bytes :=
  let n := exp.natAbs
  let hundreds := if 100 ≤ n then [UInt8.ofNat (48 + n / 100)] else []
  letter :: (if exp < 0 then 45 else 43) :: hundreds ++
    [UInt8.ofNat (48 + n % 100 / 10), UInt8.ofNat (48 + n % 10)]

/-- Removes trailing zeros behind a point. One digit is kept there with `keep`; otherwise a point
without digits goes, too. -/
def trimZeros (keep : Bool) (bytes : Bytes) : Bytes :=
  let kept := bytes.reverse.dropWhile (· == 48)
  match kept with
  | 46 :: rest => if keep then (48 :: kept).reverse else rest.reverse
  | _ => kept.reverse

/-- Writes the absolute value of a double. -/
def magnitude (form : RealForm) (x : Double) : Bytes :=
  if x.isNaN then Bytes.ofString "NaN"
  else if x.isInf then Bytes.ofString "Inf"
  else
    let style := form.style
    let precision := if style == .general then form.precision - 1 else form.precision
    let rounder := halfUnit precision
    let value := if style == .fixed then Extended.add x.scaled rounder else x.scaled
    let (value, exp) := if value.mant = 0 then (value, 0) else normalize value
    let (value, exp) :=
      if style == .fixed then (value, exp)
      else
        let value := Extended.add value rounder
        if (Scaled.ofNat 10).le value then (Extended.mul value (tenDouble (-1)), exp + 1)
        else (value, exp)
    let exponential :=
      style == .exponential || style == .general && (exp < -4 || (precision : Int) < exp)
    let places : Int := if style == .general && !exponential then precision - exp else precision
    let lead : Int := if exponential then 0 else exp
    let avail := if form.wide then 26 else 16
    let (before, avail, value) :=
      if lead < 0 then ([48], avail, value) else takeDigits (lead.toNat + 1) avail value
    let point : Bytes := if 0 < places || form.wide || form.full then [46] else []
    let zeros := if lead < 0 then (-lead - 1).toNat else 0
    let (after, _, _) := takeDigits (places.toNat - zeros) avail value
    let digits := before ++ point ++ List.replicate zeros 48 ++ after
    let trimmed := if style == .general then !form.full else form.wide
    let digits := if trimmed && !point.isEmpty then trimZeros form.wide digits else digits
    digits ++ if exponential then exponentSuffix (if form.upper then 69 else 101) exp else []

/-- Whether a minus is written in front of a double; a zero and what is no number have none. -/
def isNegative (x : Double) : Bool := x.lt .zero

def render (form : RealForm) (x : Double) : Bytes :=
  if isNegative x then 45 :: magnitude form x else magnitude form x

/-- The text of a real value: fifteen significant digits and always a point. -/
def ofReal (x : Double) : Bytes := render { style := .general, precision := 15, wide := true } x

end Decimal

end QueryMachine
