import LedgerGovernance.Text

/-! Hexadecimal text of byte strings: two lowercase digits a byte when written,
digits of either case when read. -/

namespace LedgerGovernance

abbrev Bytes := List UInt8

namespace Text

/-- The digit of a value below sixteen. -/
def hexDigit (value : Nat) : Char :=
  "0123456789abcdef".toList.getD value '0'

def hex : Bytes → Text
  | [] => []
  | byte :: rest => hexDigit (byte.toNat / 16) :: hexDigit (byte.toNat % 16) :: hex rest

/-- The value of a digit of either case. -/
def hexDigitValue? (digit : Char) : Option Nat :=
  if '0' ≤ digit ∧ digit ≤ '9' then some (digit.toNat - '0'.toNat)
  else if 'a' ≤ digit ∧ digit ≤ 'f' then some (digit.toNat - 'a'.toNat + 10)
  else if 'A' ≤ digit ∧ digit ≤ 'F' then some (digit.toNat - 'A'.toNat + 10)
  else none

/-- A text of an odd length, or with a character that is no digit, is no byte
string. -/
def readHex? : Text → Option Bytes
  | [] => some []
  | [_] => none
  | high :: low :: rest => do
      let high ← hexDigitValue? high
      let low ← hexDigitValue? low
      let bytes ← readHex? rest
      return UInt8.ofNat (16 * high + low) :: bytes

example : hex [0, 171] = "00ab".toList := by decide

example : readHex? "00aB".toList = some [0, 171] := by decide

example : readHex? "0".toList = none := by decide

end Text

end LedgerGovernance
