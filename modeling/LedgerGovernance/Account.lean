import LedgerGovernance.Text.Hex

/-! Accounts are byte strings of twenty bytes. Callers may hand in byte strings
of any length; those that are no account are refused where an account has to be
written. -/

namespace LedgerGovernance

abbrev Account := Bytes

namespace Account

def size : Nat := 20

def isAccount (bytes : Bytes) : Bool :=
  bytes.length == size

/-- Every byte is zero; the empty byte string has no other byte either. -/
def isZero (bytes : Bytes) : Bool :=
  bytes.all (· == 0)

/-- The bytes in hexadecimal, whatever their number. -/
def text (account : Account) : String :=
  String.ofList (Text.hex account)

/-- Forty hexadecimal digits of either case. -/
def ofHex? (text : Text) : Option Account :=
  if text.length = 2 * size then Text.readHex? text else none

end Account

end LedgerGovernance
