import LedgerGovernance.Record.Draft

/-! Reading a record without taking it apart, and single edits of a record. -/

namespace LedgerGovernance

namespace Record

/-- Reads on through a record. `pending` is what the entry at hand has still to
show of the key; it is nothing once the entry has departed from the key, up to the
next `;`. -/
def scan (key : Text) : (pending : Option Text) → Text → Option Text
  | _, [] => none
  | some [], '=' :: rest => some (rest.takeWhile (· ≠ ';'))
  | _, ';' :: rest => scan key (some key) rest
  | _, '=' :: rest => scan key none rest
  | some (expected :: pending), character :: rest =>
      scan key (if expected = character then some pending else none) rest
  | _, _ :: rest => scan key none rest

/-- The value of the first entry with a key, found in one pass over the text. -/
def findValue (record key : Text) : Option Text :=
  scan key (some key) record

example : findValue "ab=1;a=2;a=3".toList "a".toList = some ['2'] := by decide

example : findValue ";;=x".toList [] = some ['x'] := by decide

/-- No key holds an `=`, whatever is looked for. -/
example : findValue "a=b=c".toList "a=b".toList = none := by decide

def hasKey (record key : Text) : Bool :=
  (findValue record key).isSome

def setEntry (record key value : Text) (capacity : Number) : Outcome Text := do
  let draft ← (Draft.ofRecord record).set key value
  draft.encode capacity

def appendEntry (record key value : Text) (capacity : Number) : Outcome Text := do
  let draft ← (Draft.ofRecord record).append key value
  draft.encode capacity

def removeEntry (record key : Text) : Text :=
  ((Draft.ofRecord record).remove key).toRecord

/-- The record with the separator that a further entry needs in front of it. -/
def withSeparator (record : Text) : Text :=
  if record = [] then [] else record ++ [';']

end Record

end LedgerGovernance
