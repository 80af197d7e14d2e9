/-!
Exact binary magnitudes `mant * 2 ^ exp`, and rounding to a number of significant bits.
A tie goes to the even neighbour.
-/

namespace QueryMachine

structure Scaled where
  mant : Nat
  exp : Int
  deriving Repr, DecidableEq

namespace Scaled

def bitLength (n : Nat) : Nat := if n = 0 then 0 else n.log2 + 1

/-- The quotient `m / 2 ^ s`, rounded to the nearest integer. -/
def roundShift (m s : Nat) : Nat :=
  let q := m / Nat.pow 2 s
  let r := m % Nat.pow 2 s
  if 2 * r > Nat.pow 2 s ∨ (2 * r = Nat.pow 2 s ∧ q % 2 = 1) then q + 1 else q

@[simp] theorem roundShift_zero (m : Nat) : roundShift m 0 = m := by
  simp [roundShift, Nat.mod_one]

/-- Keeps `p` significant bits and no bit below `2 ^ least`. -/
def round (p : Nat) (least : Int) (x : Scaled) : Scaled :=
  let s := max ((bitLength x.mant : Int) - p) (least - x.exp)
  if s ≤ 0 then x else ⟨roundShift x.mant s.toNat, x.exp + s⟩

/-- The mantissa `x` would have at exponent `e`, when `e` is not above its own. -/
def mantAt (x : Scaled) (e : Int) : Nat := x.mant * Nat.pow 2 (x.exp - e).toNat

def add (x y : Scaled) : Scaled :=
  let e := min x.exp y.exp
  ⟨x.mantAt e + y.mantAt e, e⟩

/-- Difference, zero when `y` is larger. -/
def sub (x y : Scaled) : Scaled :=
  let e := min x.exp y.exp
  ⟨x.mantAt e - y.mantAt e, e⟩

def mul (x y : Scaled) : Scaled := ⟨x.mant * y.mant, x.exp + y.exp⟩

def cmp (x y : Scaled) : Ordering :=
  let e := min x.exp y.exp
  compare (x.mantAt e) (y.mantAt e)

def lt (x y : Scaled) : Bool := x.cmp y == .lt

def le (x y : Scaled) : Bool := x.cmp y != .gt

def floor (x : Scaled) : Nat :=
  if 0 ≤ x.exp then x.mant * Nat.pow 2 x.exp.toNat else x.mant / Nat.pow 2 (-x.exp).toNat

/-- A quotient cut after more than `p` bits; the last bit is set when anything was cut off, so
rounding it to `p` bits or fewer rounds the exact quotient. -/
def div (p : Nat) (x y : Scaled) : Scaled :=
  let k := p + 2 + bitLength y.mant - bitLength x.mant
  let n := x.mant * Nat.pow 2 k
  ⟨2 * (n / y.mant) + (if n % y.mant = 0 then 0 else 1), x.exp - y.exp - k - 1⟩

def ofNat (n : Nat) : Scaled := ⟨n, 0⟩

/-- The product `m * 10 ^ e`, exact for a nonnegative `e` and good for rounding to `p` bits otherwise. -/
def ofDecimal (p : Nat) (m : Nat) (e : Int) : Scaled :=
  if 0 ≤ e then ofNat (m * Nat.pow 10 e.toNat) else div p (ofNat m) (ofNat (Nat.pow 10 (-e).toNat))

end Scaled

/-!
Extended numbers keep 64 significant bits. Reading and writing decimals goes through them.
-/

namespace Extended

def round (x : Scaled) : Scaled := x.round 64 (-16445)

def mul (x y : Scaled) : Scaled := round (x.mul y)

def div (x y : Scaled) : Scaled := round (Scaled.div 64 x y)

def add (x y : Scaled) : Scaled := round (x.add y)

def sub (x y : Scaled) : Scaled := round (x.sub y)

end Extended

end QueryMachine
