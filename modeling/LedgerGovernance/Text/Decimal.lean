import LedgerGovernance.Text

/-! Decimal text of natural numbers. Writing uses the fewest digits; reading
accepts leading zeros, but only a limited count of digits and values up to a
bound, so that a field of fixed width is never read as something wider. -/

namespace LedgerGovernance

def maxU8 : Nat := 255

def maxU32 : Nat := 4294967295

def maxU64 : Nat := 18446744073709551615

namespace Text

/-- The decimal digits of a number, without leading zeros. -/
def decimal (value : Nat) : Text :=
  Nat.toDigits 10 value

example : decimal 0 = ['0'] := by decide

example : decimal 259200 = ['2', '5', '9', '2', '0', '0'] := by decide

/-- The value of a run of decimal digits. -/
def digitsValue (digits : Text) : Nat :=
  Nat.ofDigitChars 10 digits 0

theorem digitsValue_decimal (value : Nat) : digitsValue (decimal value) = value :=
  Nat.ofDigitChars_toDigits (by decide) (by decide)

/-- One to `width` decimal digits. -/
def isDecimal (width : Nat) (text : Text) : Bool :=
  !text.isEmpty && text.length ≤ width && text.all Char.isDigit

/-- A number of one to `width` decimal digits that does not exceed `bound`. -/
def readDecimal? (width bound : Nat) (text : Text) : Option Nat :=
  if isDecimal width text ∧ digitsValue text ≤ bound then
    some (digitsValue text)
  else
    none

/-- Ten digits are enough for every 32-bit value. -/
def readU32? (text : Text) : Option Nat :=
  readDecimal? 10 maxU32 text

/-- Twenty digits are enough for every 64-bit value. -/
def readU64? (text : Text) : Option Nat :=
  readDecimal? 20 maxU64 text

/-- A counter is a 32-bit number that fits in one byte. -/
def readCount? (text : Text) : Option Nat :=
  (readU32? text).filter (· ≤ maxU8)

/-- Leading zeros count as digits but not towards the value. -/
example : readCount? "0000000007".toList = some 7 := by decide

example : readCount? "00000000007".toList = none := by decide

example : readU32? "4294967296".toList = none := by decide

end Text

end LedgerGovernance
