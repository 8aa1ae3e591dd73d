import LedgerGovernance.Text

/-! Strings of UTF-16 units. Every text has units, and they read back as the text.
Units are more than texts: half of a surrogate pair may stand on its own, and then
the units stand for no text. -/

namespace LedgerGovernance

abbrev Units := List UInt16

namespace Units

/-! ## Writing -/

/-- A character outside the basic plane takes a surrogate pair. -/
def ofChar (character : Char) : Units :=
  let code := character.toNat
  if code < 0x10000 then [UInt16.ofNat code]
  else
    let rest := code - 0x10000
    [UInt16.ofNat (0xd800 + rest / 0x400), UInt16.ofNat (0xdc00 + rest % 0x400)]

def ofText (text : Text) : Units :=
  text.flatMap ofChar

def ofString (value : String) : Units :=
  ofText value.toList

instance : Coe String Units := ⟨ofString⟩

example : ofString "a😀" = [0x61, 0xd83d, 0xde00] := by decide

/-! ## Reading -/

/-- The first half of a surrogate pair. -/
def isHigh (unit : UInt16) : Bool :=
  0xd800 ≤ unit && unit < 0xdc00

/-- The second half of a surrogate pair. -/
def isLow (unit : UInt16) : Bool :=
  0xdc00 ≤ unit && unit < 0xe000

/-- The character of a unit on its own. A half has none, and the replacement
character stands for it. -/
def alone (unit : UInt16) : Char :=
  if isHigh unit || isLow unit then '\ufffd' else Char.ofNat unit.toNat

/-- The character of a surrogate pair. -/
def joined (high low : UInt16) : Char :=
  Char.ofNat (0x10000 + 0x400 * (high.toNat - 0xd800) + (low.toNat - 0xdc00))

/-- The text that the units stand for, up to halves on their own. -/
def text : Units → Text
  | [] => []
  | [unit] => [alone unit]
  | high :: low :: rest =>
      if isHigh high && isLow low then joined high low :: text rest
      else alone high :: text (low :: rest)

def string (units : Units) : String :=
  String.ofList (text units)

example : text [0x61, 0xd83d, 0xde00] = "a😀".toList := by decide

/-- A half in front of a pair leaves the pair whole. -/
example : text [0xd83d, 0xd83d, 0xde00] = "\ufffd😀".toList := by decide

end Units

end LedgerGovernance
