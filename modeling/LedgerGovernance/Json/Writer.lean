import LedgerGovernance.Json
import LedgerGovernance.Text.Hex

/-! JSON text in ASCII: units outside it are escaped, a number is
written in its shortest text, and one that is not finite as `null`. -/

namespace LedgerGovernance

namespace Json

/-- A unit as an escape. -/
def escapeUnit (unit : Nat) : Text :=
  '\\' :: 'u' ::
    [Text.hexDigit (unit / 4096 % 16), Text.hexDigit (unit / 256 % 16),
      Text.hexDigit (unit / 16 % 16), Text.hexDigit (unit % 16)]

/-- A unit inside quotes. -/
def escape (unit : UInt16) : Text :=
  let code := unit.toNat
  let character := Char.ofNat code
  if character = '"' ∨ character = '\\' then ['\\', character]
  else if 0x20 ≤ code ∧ code < 0x7f then [character]
  else escapeUnit code

def quoted (value : Units) : String :=
  String.ofList ('"' :: (value.flatMap escape ++ ['"']))

/-- Half of a surrogate pair is written as it is, on its own or not. -/
example : (Units.ofString "😀").flatMap escape ++ escape 0xd800
    = "\\ud83d\\ude00\\ud800".toList := by decide

def numberText : Number → String
  | .finite value => (Number.finite value).text
  | .infinite _ | .nan => "null"

mutual

def write : Json → String
  | null => "null"
  | bool value => if value then "true" else "false"
  | number value => numberText value
  | units value => quoted value
  | array items => "[" ++ ",".intercalate (writeItems items) ++ "]"
  | fields entries =>
      String.singleton '\x7b' ++ ",".intercalate (writeFields entries)
        ++ String.singleton '\x7d'

def writeItems : List Json → List String
  | [] => []
  | item :: rest => write item :: writeItems rest

def writeFields : List (Units × Json) → List String
  | [] => []
  | (name, value) :: rest => (quoted name ++ ":" ++ write value) :: writeFields rest

end

end Json

end LedgerGovernance
