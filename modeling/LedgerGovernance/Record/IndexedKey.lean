import LedgerGovernance.Fault

/-! A composite key carries an index of one byte between a stem and an ending.
The index is written in decimal without leading zeros. -/

namespace LedgerGovernance

namespace IndexedKey

def write (stem : Text) (index : Nat) (ending : Text) : Text :=
  stem ++ Text.decimal index ++ ending

/-- The key for an index from outside, which may be out of range. -/
def make (stem : Text) (index : Number) (ending : Text) : Outcome Text := do
  return write stem (← index.keyIndex) ending

/-- An index as it is written: no leading zeros, and at most one byte. -/
def readIndex? (digits : Text) : Option Nat :=
  if digits.head? = some '0' ∧ digits ≠ ['0'] then none
  else Text.readDecimal? 3 maxU8 digits

/-- The index of a key that starts with the stem and, behind the index, ends
with the ending. -/
def read? (key stem ending : Text) : Option Nat := do
  let rest ← Text.withoutStem? stem key
  let digits ← Text.withoutEnding? ending rest
  readIndex? digits

example : read? "prop_12_state".toList "prop_".toList "_state".toList = some 12 := by decide

/-- The ending may not reach into the stem. -/
example : read? "a1b".toList "a1".toList "1b".toList = none := by decide

example : read? "x012".toList "x".toList [] = none := by decide

end IndexedKey

end LedgerGovernance
