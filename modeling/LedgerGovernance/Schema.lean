import LedgerGovernance.Json

/-! Judging values from outside. A schema accepts a value and converts it, finds
flaws in a value of the right type, or rejects a value of another type. The
difference shows where a value may have one of two types: the flaws of the type
that it has are reported, and a value of neither is reported as such. -/

namespace LedgerGovernance

/-! ## Problems -/

inductive Problem where
  | missing
  | wrongType (expected received : String)
  | notWhole
  | tooSmall (least : Nat)
  | tooBig (greatest : Nat)
  | unknownName (names : List String) (found : Units)
  | notDigits
  | notHexDigits
  | notAccount
  | notId
  | beyondU64
  | noAlternative
deriving DecidableEq, Repr

namespace Problem

/-- Names as they are listed in a message. -/
def nameList (names : List String) : String :=
  " | ".intercalate (names.map fun name => s!"'{name}'")

def code : Problem → String
  | missing | wrongType .. | notWhole => "invalid_type"
  | tooSmall _ => "too_small"
  | tooBig _ => "too_big"
  | unknownName .. => "invalid_enum_value"
  | notDigits | notHexDigits => "invalid_string"
  | notAccount | notId | beyondU64 => "custom"
  | noAlternative => "invalid_union"

def message : Problem → Units
  | missing => "Required"
  | wrongType expected received => s!"Expected {expected}, received {received}"
  | notWhole => "Expected integer, received float"
  | tooSmall least => s!"Number must be greater than or equal to {least}"
  | tooBig greatest => s!"Number must be less than or equal to {greatest}"
  | unknownName names found =>
      s!"Invalid enum value. Expected {nameList names}, received '" ++ found ++ "'"
  | notDigits => "Expected a decimal integer"
  | notHexDigits | notAccount => "Expected 40 hex characters"
  | notId => "Expected a decimal u32 id"
  | beyondU64 => "Exceeds the u64 range"
  | noAlternative => "Invalid input"

end Problem

/-- A problem and the field that it is in; the path is empty for a value that is
no field. -/
structure Issue where
  path : String
  problem : Problem
deriving DecidableEq, Repr

namespace Issue

def json (issue : Issue) : Json :=
  .object [
    ("path", issue.path),
    ("code", issue.problem.code),
    ("message", issue.problem.message)]

end Issue

/-! ## Judgements -/

inductive Judged (α : Type) where
  | accepted (value : α)
  | flawed (problems : List Problem)
  | rejected (problem : Problem)
deriving DecidableEq, Repr

namespace Judged

variable {α β : Type}

def map (convert : α → β) : Judged α → Judged β
  | accepted value => accepted (convert value)
  | flawed problems => flawed problems
  | rejected problem => rejected problem

/-- A further check of an accepted value. -/
def require (holds : α → Bool) (problem : Problem) : Judged α → Judged α
  | accepted value => if holds value then accepted value else flawed [problem]
  | judged => judged

/-- The judgement as a result, with the problems found in the field `path`. -/
def within (path : String) : Judged α → Except (List Issue) α
  | accepted value => .ok value
  | flawed problems => .error (problems.map fun problem => { path, problem })
  | rejected problem => .error [{ path, problem }]

end Judged

/-! ## Schemas -/

/-- What is judged is nothing where a field is absent. -/
abbrev Schema (α : Type) := Option Json → Judged α

namespace Schema

variable {α β : Type}

/-- A string, judged as a text. Half of a surrogate pair on its own is judged as the
replacement character. -/
def text (judge : String → Judged α) : Schema α
  | none => .rejected .missing
  | some (.units value) => judge (Units.string value)
  | some other => .rejected (.wrongType "string" other.kind)

def number (judge : Number → Judged α) : Schema α
  | none => .rejected .missing
  | some (.number .nan) => .rejected (.wrongType "number" "nan")
  | some (.number value) => judge value
  | some other => .rejected (.wrongType "number" other.kind)

/-- A whole number within bounds. A number that is not whole is measured against
the bounds all the same. -/
def whole (least : Nat) (greatest : Option Nat) (value : Number) : Judged Nat :=
  let problems :=
    (if value.whole?.isNone then [.notWhole] else [])
      ++ (if value < (least : Number) then [Problem.tooSmall least] else [])
      ++ (greatest.toList.filter fun (greatest : Nat) =>
            (greatest : Number) < value).map Problem.tooBig
  match problems with
  | [] => .accepted (value.whole?.getD 0).toNat
  | problems => .flawed problems

/-- One of some values by its name. -/
def oneOf (values : List α) (name : α → String) : Schema α
  | none => .rejected .missing
  | some (.units found) =>
      match values.find? fun value => Units.ofString (name value) == found with
      | some value => .accepted value
      | none => .rejected (.unknownName (values.map name) found)
  | some other =>
      .rejected (.wrongType (Problem.nameList (values.map name)) other.kind)

def map (convert : α → β) (schema : Schema α) : Schema β := fun value =>
  (schema value).map convert

/-- A value that may be absent, but not `null`. -/
def optional (schema : Schema α) : Schema (Option α)
  | none => .accepted none
  | some value => (schema (some value)).map some

/-- A value of one of two types. -/
def either (first second : Schema α) : Schema α := fun value =>
  match first value, second value with
  | .accepted value, _ => .accepted value
  | _, .accepted value => .accepted value
  | .flawed problems, _ => .flawed problems
  | _, .flawed problems => .flawed problems
  | .rejected _, .rejected _ => .rejected .noAlternative

/-- A value that is no field of anything. -/
def judge (schema : Schema α) (value : Option Json) : Except (List Issue) α :=
  (schema value).within ""

/-- An object of which one field counts. -/
def inField (name : String) (schema : Schema α) : Option Json → Except (List Issue) α
  | none => .error [{ path := "", problem := .missing }]
  | some (.fields entries) => (schema ((Json.fields entries).field? name)).within name
  | some other => .error [{ path := "", problem := .wrongType "object" other.kind }]

end Schema

end LedgerGovernance
