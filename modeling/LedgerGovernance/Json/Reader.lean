import LedgerGovernance.Json
import LedgerGovernance.Number.Literal

/-! Reading JSON text: first the tokens of the text, then the one value that they
make up. A text that departs from the grammar anywhere is refused. -/

namespace LedgerGovernance

namespace Json

/-! ## Strings -/

/-- The text up to the closing quote and the text behind it, with escapes left as
they are. -/
def untilQuote? : Text → Option (Text × Text)
  | [] => none
  | '"' :: rest => some ([], rest)
  | '\\' :: character :: rest =>
      (untilQuote? rest).map fun (inside, rest) => ('\\' :: character :: inside, rest)
  | character :: rest =>
      (untilQuote? rest).map fun (inside, rest) => (character :: inside, rest)

def hexUnit? (digits : List Char) : Option Nat :=
  digits.foldl (fun unit? digit => do
    return 16 * (← unit?) + (← Text.hexDigitValue? digit)) (some 0)

/-- The character that stands behind a backslash for another one. -/
def unescaped? : Char → Option Char
  | '"' => some '"'
  | '\\' => some '\\'
  | '/' => some '/'
  | 'b' => some '\x08'
  | 'f' => some '\x0c'
  | 'n' => some '\n'
  | 'r' => some '\x0d'
  | 't' => some '\t'
  | _ => none

/-- The units of the escapes and of all other characters, which may not be
controls. -/
def units? : Text → Option Units
  | [] => some []
  | '\\' :: 'u' :: first :: second :: third :: fourth :: rest => do
      let unit ← hexUnit? [first, second, third, fourth]
      return UInt16.ofNat unit :: (← units? rest)
  | '\\' :: mark :: rest => do
      let character ← unescaped? mark
      return Units.ofChar character ++ (← units? rest)
  | character :: rest => do
      if character = '\\' ∨ character.toNat < 0x20 then none
      else return Units.ofChar character ++ (← units? rest)

/-! ## Numbers -/

/-- Zero, or digits that do not start with it. -/
def isIntegral : Text → Bool
  | [] => false
  | ['0'] => true
  | '0' :: _ => false
  | digits => digits.all Char.isDigit

/-- An optional fraction, and an optional exponent behind it. -/
def isTail (text : Text) : Bool :=
  let isExponent : Text → Bool
    | [] => true
    | mark :: rest =>
        let digits :=
          match rest with
          | '+' :: digits | '-' :: digits => digits
          | digits => digits
        (mark == 'e' || mark == 'E') && !digits.isEmpty && digits.all Char.isDigit
  match text with
  | '.' :: rest =>
      !(rest.takeWhile Char.isDigit).isEmpty && isExponent (rest.dropWhile Char.isDigit)
  | _ => isExponent text

def number? (text : Text) : Option Number :=
  let unsigned :=
    match text with
    | '-' :: unsigned => unsigned
    | unsigned => unsigned
  if isIntegral (unsigned.takeWhile Char.isDigit) &&
      isTail (unsigned.dropWhile Char.isDigit) then
    some (Number.ofText text)
  else
    none

/-- The characters that numbers are made of. -/
def isNumeric (character : Char) : Bool :=
  character.isDigit || "+-.eE".toList.contains character

/-! ## Tokens -/

inductive Token where
  | openBrace
  | closeBrace
  | openBracket
  | closeBracket
  | comma
  | colon
  | scalar (value : Json)
deriving Repr

def word? (letters : Text) : Option Json :=
  if letters = "null".toList then some null
  else if letters = "true".toList then some (bool true)
  else if letters = "false".toList then some (bool false)
  else none

/-- The first token of a text that starts with `character`, and what follows it. -/
def token? (character : Char) (rest : Text) : Option (Token × Text) :=
  match character with
  | '\x7b' => some (.openBrace, rest)
  | '\x7d' => some (.closeBrace, rest)
  | '[' => some (.openBracket, rest)
  | ']' => some (.closeBracket, rest)
  | ',' => some (.comma, rest)
  | ':' => some (.colon, rest)
  | '"' => do
      let (inside, rest) ← untilQuote? rest
      return (.scalar (units (← units? inside)), rest)
  | character =>
      let text := character :: rest
      if character.isAlpha then
        (word? (text.takeWhile Char.isAlpha)).map fun word =>
          (.scalar word, text.dropWhile Char.isAlpha)
      else
        (number? (text.takeWhile isNumeric)).map fun value =>
          (.scalar (number value), text.dropWhile isNumeric)

def isSpace (character : Char) : Bool :=
  character == ' ' || character == '\t' || character == '\n' || character == '\x0d'

/-- Every step takes at least one character off the text. -/
def tokensWithin? : (steps : Nat) → Text → Option (List Token)
  | _, [] => some []
  | 0, _ => none
  | steps + 1, character :: rest =>
      if isSpace character then tokensWithin? steps rest
      else do
        let (token, rest) ← token? character rest
        return token :: (← tokensWithin? steps rest)

def tokens? (text : Text) : Option (List Token) :=
  tokensWithin? text.length text

/-! ## Values -/

mutual

/-- Every step takes at least one token off the list. -/
def valueWithin? : (steps : Nat) → List Token → Option (Json × List Token)
  | 0, _ => none
  | _ + 1, .scalar value :: rest => some (value, rest)
  | _ + 1, .openBracket :: .closeBracket :: rest => some (array [], rest)
  | steps + 1, .openBracket :: rest => do
      let (items, rest) ← itemsWithin? steps rest
      return (array items, rest)
  | _ + 1, .openBrace :: .closeBrace :: rest => some (fields [], rest)
  | steps + 1, .openBrace :: rest => do
      let (entries, rest) ← fieldsWithin? steps rest
      return (fields entries, rest)
  | _, _ => none

def itemsWithin? : (steps : Nat) → List Token → Option (List Json × List Token)
  | 0, _ => none
  | steps + 1, tokens => do
      let (item, rest) ← valueWithin? steps tokens
      match rest with
      | .closeBracket :: rest => return ([item], rest)
      | .comma :: rest => do
          let (items, rest) ← itemsWithin? steps rest
          return (item :: items, rest)
      | _ => none

def fieldsWithin? : (steps : Nat) → List Token → Option (List (Units × Json) × List Token)
  | 0, _ => none
  | steps + 1, .scalar (.units name) :: .colon :: rest => do
      let (value, rest) ← valueWithin? steps rest
      match rest with
      | .closeBrace :: rest => return ([(name, value)], rest)
      | .comma :: rest => do
          let (entries, rest) ← fieldsWithin? steps rest
          return ((name, value) :: entries, rest)
      | _ => none
  | _, _ => none

end

/-- The value that a text denotes. Each token takes at most two steps. -/
def read? (text : Text) : Option Json := do
  let tokens ← tokens? text
  match ← valueWithin? (2 * tokens.length) tokens with
  | (value, []) => return value
  | _ => none

end Json

end LedgerGovernance
