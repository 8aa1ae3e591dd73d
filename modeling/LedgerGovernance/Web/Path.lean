import LedgerGovernance.Text.Hex

/-! The path of a request. A target is brought into one form first: the query is
cut off, segments that lead nowhere are taken out, and characters that a target may
not hold are percent-encoded. A fragment stays behind the path as it is, and no
segment of it is taken out. Routes are found by the decoded path, in which only the
percent sign and the characters that have a meaning in a target are still encoded;
those are decoded last, in the parameters that a route takes from its path. -/

namespace LedgerGovernance

namespace Path

/-! ## Percent encoding -/

/-- A byte as a percent sign and two digits. -/
def encodeByte (byte : UInt8) : Text :=
  '%' :: (Text.hex [byte]).map Char.toUpper

def utf8 (text : Text) : Bytes :=
  (String.ofList text).toUTF8.toList

/-- The characters that a fragment holds as they are. -/
def isFragmentCharacter (character : Char) : Bool :=
  '!' ≤ character && character ≤ '~' && !"\"<>`".toList.contains character

/-- The characters that a path holds as they are. -/
def isPathCharacter (character : Char) : Bool :=
  isFragmentCharacter character && character != '\x7b' && character != '\x7d'

def encode (keep : Char → Bool) (text : Text) : Text :=
  text.flatMap fun character =>
    if keep character then [character]
    else (utf8 [character]).flatMap encodeByte

/-- Every encoded percent sign is encoded once more, so that decoding leaves it
encoded. The second code does not belong to the run of bytes that the first one
ends. -/
def shieldPercent : Text → Text
  | '%' :: '2' :: '5' :: rest => '%' :: '2' :: '5' :: '2' :: '5' :: shieldPercent rest
  | character :: rest => character :: shieldPercent rest
  | [] => []

/-! ## Percent decoding -/

/-- The longest run of encoded bytes that a text starts with, each with its
digits, and the text behind it. -/
def encodedRun : Text → List (UInt8 × Text) × Text
  | '%' :: high :: low :: rest =>
      match Text.readHex? [high, low] with
      | some [byte] =>
          let (run, rest) := encodedRun rest
          ((byte, ['%', high, low]) :: run, rest)
      | _ => ([], '%' :: high :: low :: rest)
  | text => ([], text)

/-- The characters that a run of bytes stands for. A character of one byte that
is to be kept stays encoded. -/
def decodeCharacters (keep : Char → Bool) : Text → List (UInt8 × Text) → Text
  | [], _ => []
  | character :: rest, run =>
      let (own, others) := run.splitAt (utf8 [character]).length
      (if keep character then (own.map (·.2)).flatten else [character])
        ++ decodeCharacters keep rest others

/-- A run of bytes that is not UTF-8 stays as it is. -/
def decodeRun (keep : Char → Bool) (run : List (UInt8 × Text)) : Text :=
  match String.fromUTF8? ⟨(run.map (·.1)).toArray⟩ with
  | some decoded => decodeCharacters keep decoded.toList run
  | none => (run.map (·.2)).flatten

/-- Every step takes at least one character off the text. -/
def decodeWithin (keep : Char → Bool) : (steps : Nat) → Text → Text
  | _, [] => []
  | 0, text => text
  | steps + 1, character :: rest =>
      match encodedRun (character :: rest) with
      | ([], _) => character :: decodeWithin keep steps rest
      | (run, rest) => decodeRun keep run ++ decodeWithin keep steps rest

def decode (keep : Char → Bool) (text : Text) : Text :=
  decodeWithin keep text.length text

/-- The characters that stay encoded until a parameter is taken from the path. -/
def isReserved (character : Char) : Bool :=
  ";/?:@&=+$,#".toList.contains character

/-- Encoded digits are decoded, and an encoded slash separates nothing. -/
example : decode isReserved "/a%37%2Fb".toList = "/a7%2Fb".toList := by decide +kernel

/-- A parameter as its route reads it. -/
def parameter (segment : Text) : Text :=
  decode (fun _ => false) segment

/-! ## Targets -/

/-- One dot, each dot possibly encoded. -/
def isDot (segment : Text) : Bool :=
  let lower := segment.map Char.toLower
  lower == ".".toList || lower == "%2e".toList

/-- Two dots, each dot possibly encoded. -/
def isDoubleDot (segment : Text) : Bool :=
  let lower := segment.map Char.toLower
  lower == "..".toList || lower == ".%2e".toList || lower == "%2e.".toList
    || lower == "%2e%2e".toList

/-- The segments with those that lead nowhere taken out; `above` holds the
segments so far, the last one first. Dots at the end leave an empty segment. -/
def settle (above : List Text) : List Text → List Text
  | [] => above.reverse
  | segment :: rest =>
      if isDoubleDot segment then
        settle (if rest = [] then [] :: above.drop 1 else above.drop 1) rest
      else if isDot segment then
        settle (if rest = [] then [] :: above else above) rest
      else
        settle (segment :: above) rest

/-- The segments of a path, the first of which is empty. -/
def segments (path : Text) : List Text :=
  path.splitOn '/'

/-- Tabs and line ends do not count in a target, nor do blanks and controls at its
end. -/
def strip (target : Text) : Text :=
  let kept := target.filter fun character =>
    character != '\t' && character != '\n' && character != '\x0d'
  (kept.reverse.dropWhile (· ≤ ' ')).reverse

/-- What stands behind the host. A target follows the name of the host, which goes
on until a slash, a query or a fragment starts. -/
def behindHost (target : Text) : Text :=
  target.dropWhile fun character => !"/\\?#".toList.contains character

/-- The path in front of the query or the fragment, with its segments settled. -/
def settled (target : Text) : Text :=
  let path := target.takeWhile fun character => !"?#".toList.contains character
  let path := path.map fun character => if character = '\\' then '/' else character
  '/' :: ['/'].intercalate (settle [] ((segments path).drop 1))

/-- The fragment with its sign, if the target has one. A question mark ends it. -/
def fragment (target : Text) : Text :=
  match target.dropWhile fun character => !"?#".toList.contains character with
  | '#' :: rest => '#' :: rest.takeWhile (· != '?')
  | _ => []

/-- The decoded path of a target. -/
def ofTarget (target : Text) : Text :=
  let target := behindHost (strip target)
  let encoded := encode isPathCharacter (settled target)
    ++ encode isFragmentCharacter (fragment target)
  decode isReserved (shieldPercent encoded)

example : ofTarget "/a/./b/../c?x".toList = "/a/c".toList := by decide +kernel

example : ofTarget "/a/../b#/../c?x".toList = "/b#/../c".toList := by decide +kernel

/-- An encoded percent sign stays, and parts the bytes around it: what stands in
front of it is decoded, and what follows is not UTF-8. -/
example : ofTarget "/%41%25%ff".toList = "/A%25%ff".toList := by decide +kernel

/-! ## Lines -/

def isLineEnd (character : Char) : Bool :=
  "\n\x0d\u2028\u2029".toList.contains character

/-- Whether a path is a single line. -/
def isLine (path : Text) : Bool :=
  !path.any isLineEnd

end Path

end LedgerGovernance
