import LedgerGovernance.Number.Rounding

/-! Shortest decimal text: the fewest digits that read back as the same
binary64 number, and of those the nearest to it. -/

namespace LedgerGovernance

namespace Number

private def timesTenTo (value : Rat) (places : Int) : Rat :=
  if places < 0 then value / (Nat.pow 10 (-places).toNat : Nat)
  else value * (Nat.pow 10 places.toNat : Nat)

/-- The exponent `e` with `10^(e-1) ≤ value < 10^e`, for a positive value. -/
private def decimalExponent (value : Rat) : Int :=
  let estimate : Int :=
    ((Nat.toDigits 10 value.num.natAbs).length : Int) - (Nat.toDigits 10 value.den).length
  if value < timesTenTo 1 estimate then estimate else estimate + 1

/-- Of the two neighbours of a positive value among the multiples of
`10^(-places)`, the one that reads back as the value: the nearer one if both
do, and the even one if they are equally near. -/
private def readsBackAt? (value : Rat) (places : Int) : Option Nat :=
  let scaled := timesTenTo value places
  let low := scaled.floor.toNat
  let readsBack := fun (digits : Nat) =>
    nearest (timesTenTo (digits : Rat) (-places)) == .finite value
  match readsBack low, readsBack (low + 1) with
  | true, true =>
      let rest := 2 * (scaled - (low : Rat))
      if rest < 1 then some low
      else if 1 < rest then some (low + 1)
      else some (low + low % 2)
  | true, false => some low
  | false, true => some (low + 1)
  | false, false => none

private def dropTrailingZeros (digits : List Char) : List Char :=
  (digits.reverse.dropWhile (· == '0')).reverse

/-- The digits of a positive value and the place of its decimal point, counted
from the first digit. Seventeen digits always suffice. -/
def shortestDigits (value : Rat) : List Char × Int :=
  let exponent := decimalExponent value
  let found := (List.range 17).findSome? fun (index : Nat) =>
    let places : Int := (index + 1 : Nat) - exponent
    (readsBackAt? value places).map fun digits => (Nat.toDigits 10 digits, places)
  match found with
  | some (digits, places) => (dropTrailingZeros digits, (digits.length : Int) - places)
  | none => ([], 0)

/-- Values from 10^-6 up to 10^21 are written positionally, all others with an
exponent. -/
private def greatestPoint : Int := 21

private def leastPoint : Int := -6

private def zeros (count : Int) : List Char :=
  List.replicate count.toNat '0'

/-- Digits with their decimal point put in, or with an exponent that always
shows its sign. -/
def layOut (digits : List Char) (point : Int) : List Char :=
  let count : Int := digits.length
  if count ≤ point ∧ point ≤ greatestPoint then
    digits ++ zeros (point - count)
  else if 0 < point ∧ point ≤ greatestPoint then
    digits.take point.toNat ++ '.' :: digits.drop point.toNat
  else if leastPoint < point ∧ point ≤ 0 then
    '0' :: '.' :: (zeros (-point) ++ digits)
  else
    let exponent := point - 1
    let sign := if exponent < 0 then '-' else '+'
    let tail := 'e' :: sign :: Nat.toDigits 10 exponent.natAbs
    match digits with
    | [] => tail
    | [first] => first :: tail
    | first :: rest => first :: '.' :: (rest ++ tail)

private def sizeText (size : Rat) : List Char :=
  if size.den = 1 ∧ size.num.natAbs ≤ exactBound then
    Nat.toDigits 10 size.num.natAbs
  else
    let (digits, point) := shortestDigits size
    layOut digits point

/-- The text of a number. -/
def text : Number → String
  | .finite value =>
      if value < 0 then String.ofList ('-' :: sizeText (-value))
      else String.ofList (sizeText value)
  | .infinite negative => if negative then "-Infinity" else "Infinity"
  | .nan => "NaN"

instance : ToString Number := ⟨text⟩

end Number

end LedgerGovernance
