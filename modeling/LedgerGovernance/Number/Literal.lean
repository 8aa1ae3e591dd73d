import LedgerGovernance.Number.Rounding
import LedgerGovernance.Text.Decimal
import LedgerGovernance.Text.Hex

/-! Numbers read from free text, such as the value of an environment variable.
Blanks around the number do not count, and blank text is zero. Whole numbers may
be written in base 16, 8 or 2 behind `0x`, `0o` or `0b`, without a sign. -/

namespace LedgerGovernance

namespace Text

/-- Blanks are the spaces and line ends of Unicode, and the byte order mark. -/
def isBlank (character : Char) : Bool :=
  let code := character.toNat
  (9 ≤ code && code ≤ 13) || code == 0x20 || code == 0xa0 || code == 0x1680 ||
    (0x2000 ≤ code && code ≤ 0x200a) || code == 0x2028 || code == 0x2029 ||
    code == 0x202f || code == 0x205f || code == 0x3000 || code == 0xfeff

end Text

namespace Number

/-- Digits of a base up to sixteen, as one value; at least one is needed. -/
private def radixValue? (base : Nat) (digits : Text) : Option Nat :=
  if digits = [] then none
  else
    digits.foldl (fun value? digit => do
      let value ← value?
      let digit ← Text.hexDigitValue? digit
      if digit < base then some (base * value + digit) else none) (some 0)

private def signed (text : Text) : Bool × Text :=
  match text with
  | '-' :: rest => (true, rest)
  | '+' :: rest => (false, rest)
  | _ => (false, text)

/-- The exponent after the digits of a decimal: nothing, or `e` with a whole
number. -/
private def exponent? : Text → Option Int
  | [] => some 0
  | mark :: rest =>
      let (negative, digits) := signed rest
      if (mark = 'e' ∨ mark = 'E') ∧ digits ≠ [] ∧ digits.all Char.isDigit then
        let size : Int := Text.digitsValue digits
        some (if negative then -size else size)
      else none

/-- A decimal with an optional fraction and exponent; a digit must stand before
or after the point. -/
private def decimal? (text : Text) : Option Number :=
  let (negative, body) := signed text
  if body = "Infinity".toList then some (.infinite negative)
  else
    let integral := body.takeWhile Char.isDigit
    let rest := body.dropWhile Char.isDigit
    let (fraction, rest) :=
      match rest with
      | '.' :: tail => (tail.takeWhile Char.isDigit, tail.dropWhile Char.isDigit)
      | _ => ([], rest)
    let digits := integral ++ fraction
    if digits = [] then none
    else (exponent? rest).map fun exponent =>
      ofScaled negative (Text.digitsValue digits) (exponent - fraction.length)

/-- The number that a text denotes, `nan` if it denotes none. -/
def ofText (text : Text) : Number :=
  let read? : Option Number :=
    match Text.trim Text.isBlank text with
    | [] => some 0
    | '0' :: 'x' :: digits | '0' :: 'X' :: digits =>
        (radixValue? 16 digits).map fun value => nearest value
    | '0' :: 'o' :: digits | '0' :: 'O' :: digits =>
        (radixValue? 8 digits).map fun value => nearest value
    | '0' :: 'b' :: digits | '0' :: 'B' :: digits =>
        (radixValue? 2 digits).map fun value => nearest value
    | body => decimal? body
  read?.getD .nan

end Number

end LedgerGovernance
