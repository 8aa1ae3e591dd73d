/-! Numbers as callers supply them. Times, indices, ids, role masks and vote
supports come from outside as binary64 values, so a number may be fractional,
negative or far too large for the field it is meant for. The library keeps such
a number as it is until the check that judges it. -/

namespace LedgerGovernance

inductive Number where
  | finite (value : Rat)
  | infinite (negative : Bool)
  | nan
deriving DecidableEq, Repr

namespace Number

instance : NatCast Number := ⟨fun value => .finite value⟩

instance : IntCast Number := ⟨fun value => .finite value⟩

instance (value : Nat) : OfNat Number value := ⟨.finite value⟩

instance : Inhabited Number := ⟨0⟩

/-! ## Order -/

/-- Numbers are ordered by value between the two infinities; `nan` is below
nothing and above nothing. -/
def lt : Number → Number → Bool
  | .finite left, .finite right => left < right
  | .finite _, .infinite negative => !negative
  | .infinite negative, .finite _ => negative
  | .infinite left, .infinite right => left && !right
  | _, _ => false

def le : Number → Number → Bool
  | .finite left, .finite right => left ≤ right
  | .finite _, .infinite negative => !negative
  | .infinite negative, .finite _ => negative
  | .infinite left, .infinite right => left || !right
  | _, _ => false

instance : LT Number := ⟨fun left right => left.lt right = true⟩

instance : LE Number := ⟨fun left right => left.le right = true⟩

instance (left right : Number) : Decidable (left < right) :=
  inferInstanceAs (Decidable (left.lt right = true))

instance (left right : Number) : Decidable (left ≤ right) :=
  inferInstanceAs (Decidable (left.le right = true))

example : ¬ (nan ≤ nan) := by decide

/-! ## Whole numbers -/

/-- The integer that a number is, if it is one. -/
def whole? : Number → Option Int
  | .finite value => if value.den = 1 then some value.num else none
  | _ => none

/-- The natural number up to `bound` that a number is, if it is one. -/
def upTo? (bound : Nat) (number : Number) : Option Nat :=
  match number.whole? with
  | some (.ofNat value) => if value ≤ bound then some value else none
  | _ => none

theorem whole?_natCast (value : Nat) : (value : Number).whole? = some (.ofNat value) := rfl

theorem upTo?_natCast {bound value : Nat} (fits : value ≤ bound) :
    (value : Number).upTo? bound = some value := by
  simp [upTo?, whole?_natCast, fits]

/-- The integer part, towards zero; nothing but a finite number has one. -/
def truncate : Number → Int
  | .finite value => value.num.tdiv value.den
  | _ => 0

/-- The low 32 bits of the integer part. -/
def toWord (number : Number) : BitVec 32 :=
  BitVec.ofInt 32 number.truncate

end Number

end LedgerGovernance
