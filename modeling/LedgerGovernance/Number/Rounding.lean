import LedgerGovernance.Number.Basic

/-! Rounding to binary64: 53 significant bits, a least exponent of -1074, and
half-way cases to the even neighbour. -/

namespace LedgerGovernance

namespace Number

/-- The quotient of two natural numbers, rounded to the nearest integer and to
the even one of two that are equally near. -/
def divideToEven (numerator denominator : Nat) : Nat :=
  let quotient := numerator / denominator
  let twice := 2 * (numerator % denominator)
  if twice < denominator then quotient
  else if denominator < twice then quotient + 1
  else quotient + quotient % 2

example : divideToEven 5 2 = 2 ∧ divideToEven 7 2 = 4 := by decide

/-- The exponent of the highest bit of a positive quotient. -/
def topBit (numerator denominator : Nat) : Int :=
  let estimate : Int := (numerator.log2 : Int) - denominator.log2
  let below :=
    if estimate < 0 then numerator * Nat.pow 2 (-estimate).toNat < denominator
    else numerator < denominator * Nat.pow 2 estimate.toNat
  if below then estimate - 1 else estimate

/-- The size of the binary64 number nearest to a positive quotient. -/
def nearestSize (numerator denominator : Nat) : Rat :=
  let exponent := max (topBit numerator denominator - 52) (-1074)
  if exponent < 0 then
    let scale := Nat.pow 2 (-exponent).toNat
    mkRat (divideToEven (numerator * scale) denominator) scale
  else
    let scale := Nat.pow 2 exponent.toNat
    divideToEven numerator (denominator * scale) * scale

/-- Up to here every whole number is a binary64 number. -/
def exactBound : Nat := Nat.pow 2 53

/-- From here on sizes are infinite. -/
def overflowBound : Nat := Nat.pow 2 1024

/-- The binary64 number nearest to a rational one. -/
def nearest (value : Rat) : Number :=
  if value.den = 1 ∧ value.num.natAbs ≤ exactBound then
    .finite value
  else
    let size := nearestSize value.num.natAbs value.den
    if overflowBound ≤ size then .infinite (value < 0)
    else .finite (if value < 0 then -size else size)

theorem nearest_natCast {value : Nat} (small : value ≤ exactBound) :
    nearest (value : Rat) = (value : Number) := by
  have den : (value : Rat).den = 1 := rfl
  have num : (value : Rat).num.natAbs = value := rfl
  simp only [nearest, den, num, small, and_self, if_true]
  rfl

/-- The sum, rounded once. Infinities of opposite sign have none. -/
def add : Number → Number → Number
  | .finite left, .finite right => nearest (left + right)
  | .finite _, .infinite negative => .infinite negative
  | .infinite negative, .finite _ => .infinite negative
  | .infinite left, .infinite right => if left = right then .infinite left else .nan
  | _, _ => .nan

instance : Add Number := ⟨add⟩

/-- Of two numbers the lesser; `nan` if either is. -/
def min : Number → Number → Number
  | .nan, _ => .nan
  | _, .nan => .nan
  | left, right => if left ≤ right then left else right

/-- The number written as decimal digits times a power of ten. Exponents far
outside the range of binary64 are settled without forming the power. -/
def ofScaled (negative : Bool) (digits : Nat) (exponent : Int) : Number :=
  if digits = 0 then 0
  else
    let magnitude := exponent + (Nat.toDigits 10 digits).length
    if 310 < magnitude then .infinite negative
    else if magnitude < -330 then 0
    else
      let size : Rat :=
        if exponent < 0 then mkRat digits (Nat.pow 10 (-exponent).toNat)
        else (digits * Nat.pow 10 exponent.toNat : Nat)
      nearest (if negative then -size else size)

end Number

end LedgerGovernance
