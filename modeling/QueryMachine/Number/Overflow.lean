/-!
Sums, differences and products of words. Whether a result fits is seen from the operands, and nothing
wider than a word is computed for it.
-/

namespace QueryMachine.Word

def sum? (a b : Int64) : Option Int64 :=
  if 0 ≤ b then
    if 0 < a ∧ Int64.maxValue - a < b then none else some (a + b)
  else if a < 0 ∧ b + 1 < -(a + Int64.maxValue) then none
  else some (a + b)

/-- The difference, if it fits. The least word has no negative to add. -/
def difference? (a b : Int64) : Option Int64 :=
  if b = Int64.minValue then
    if 0 ≤ a then none else some (a - b)
  else sum? a (-b)

/-- The product from the halves of the factors. Two factors without upper halves are multiplied as
they are, and the product of two with upper halves does not fit. -/
def product? (a b : Int64) : Option Int64 :=
  let a₁ := a / 4294967296
  let a₀ := a % 4294967296
  let b₁ := b / 4294967296
  let b₀ := b % 4294967296
  if a₁ = 0 then
    if b₁ = 0 then some (a * b) else join (a₀ * b₁) (a₀ * b₀)
  else if b₁ = 0 then join (a₁ * b₀) (a₀ * b₀)
  else none
where
  /-- The upper half and the rest. -/
  join (upper rest : Int64) : Option Int64 :=
    if upper < -2147483648 ∨ 2147483648 ≤ upper then none else sum? (upper * 4294967296) rest

end QueryMachine.Word
