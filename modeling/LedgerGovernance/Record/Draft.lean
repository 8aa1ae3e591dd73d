import LedgerGovernance.Fault
import LedgerGovernance.Record.Entry

/-! A draft is a working copy of a record: the list of its entries, with empty
ones left out. Several edits are made on a draft and written back as one text,
so that a record that would grow too large is not written at all. -/

namespace LedgerGovernance

/-- The size in bytes that a record may have where nothing else is agreed. -/
def defaultCapacity : Nat := 4096

structure Draft where
  entries : List Text
deriving DecidableEq, Repr

namespace Draft

def ofRecord (record : Text) : Draft :=
  ⟨(record.splitOn ';').filter (· ≠ [])⟩

def toRecord (draft : Draft) : Text :=
  [';'].intercalate draft.entries

example : (ofRecord ";a=1;;b;".toList).toRecord = "a=1;b".toList := by decide

/-! ## Reading -/

def hasKey (key entry : Text) : Bool :=
  Entry.key? entry = some key

/-- The value of the first entry with a key. -/
def get? (draft : Draft) (key : Text) : Option Text :=
  (draft.entries.find? (hasKey key)).map Entry.value

def contains (draft : Draft) (key : Text) : Bool :=
  (draft.get? key).isSome

/-- The keys in the order of their entries. -/
def keys (draft : Draft) : List Text :=
  draft.entries.filterMap Entry.key?

/-! ## Edits -/

/-- Every entry with the key is replaced where it stands. -/
def overwrite (draft : Draft) (key value : Text) : Draft :=
  ⟨draft.entries.map fun entry =>
    if hasKey key entry then Entry.make key value else entry⟩

/-- Every entry with the key is dropped. -/
def remove (draft : Draft) (key : Text) : Draft :=
  ⟨draft.entries.filter fun entry => !hasKey key entry⟩

/-- A written entry needs a key, and both of its parts must be plain text. The
key is judged first. -/
def checkEntry (key value : Text) : Outcome Unit :=
  if key = [] ∨ ¬ key.all Entry.isPlain then Outcome.illTyped (.recordKey key)
  else if ¬ value.all Entry.isPlain then Outcome.illTyped (.recordValue key value)
  else .ok ()

/-- The draft with the key's entries replaced, or nothing when it has none. -/
def replace? (draft : Draft) (key value : Text) : Outcome (Option Draft) := do
  checkEntry key value
  return if draft.contains key then some (draft.overwrite key value) else none

def append (draft : Draft) (key value : Text) : Outcome Draft := do
  checkEntry key value
  return ⟨draft.entries ++ [Entry.make key value]⟩

/-- Replaced where the key is present, and appended where it is not. -/
def set (draft : Draft) (key value : Text) : Outcome Draft := do
  match ← draft.replace? key value with
  | some replaced => return replaced
  | none => draft.append key value

/-- Several entries appended in order. -/
def appendAll (draft : Draft) : List (Text × Text) → Outcome Draft
  | [] => .ok draft
  | (key, value) :: rest => do
      let draft ← draft.append key value
      draft.appendAll rest

/-- The text of the draft, if it fits. -/
def encode (draft : Draft) (capacity : Number) : Outcome Text :=
  let text := draft.toRecord
  if capacity < (Text.utf8Size text : Number) then
    Outcome.refuse (.recordFull (Text.utf8Size text) capacity)
  else
    .ok text

end Draft

end LedgerGovernance
