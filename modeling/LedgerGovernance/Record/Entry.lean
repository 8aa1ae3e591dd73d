import LedgerGovernance.Text

/-! A ledger record is one text of `key=value` entries joined by `;`. Nothing
keeps other text out of a stored record: entries may be empty, repeat a key, or
have no `=`. -/

namespace LedgerGovernance

namespace Entry

/-- What keys and values may be made of: printable ASCII without the two
separators. -/
def isPlain (character : Char) : Bool :=
  ' ' ≤ character && character ≤ '~' && character != ';' && character != '='

/-- The key of an entry, which ends at its first `=`; an entry without one has
no key. -/
def key? : Text → Option Text
  | [] => none
  | character :: rest =>
      if character = '=' then some []
      else (key? rest).map (character :: ·)

/-- What follows the first `=`. -/
def value : Text → Text
  | [] => []
  | character :: rest => if character = '=' then rest else value rest

def make (key value : Text) : Text :=
  key ++ '=' :: value

example : key? "a=b=c".toList = some "a".toList ∧ value "a=b=c".toList = "b=c".toList := by
  decide

example : key? "=b".toList = some [] ∧ key? "ab".toList = none := by decide

theorem key?_make {key : Text} (plain : '=' ∉ key) (value : Text) :
    key? (make key value) = some key := by
  induction key with
  | nil => simp [make, key?]
  | cons head tail induction =>
      simp only [List.mem_cons, not_or] at plain
      have different : head ≠ '=' := fun equal => plain.1 equal.symm
      have found := induction plain.2
      simp only [make] at found
      simp [make, key?, different, found]

theorem value_make {key : Text} (plain : '=' ∉ key) (content : Text) :
    value (make key content) = content := by
  induction key with
  | nil => simp [make, value]
  | cons head tail induction =>
      simp only [List.mem_cons, not_or] at plain
      have different : head ≠ '=' := fun equal => plain.1 equal.symm
      have found := induction plain.2
      simp only [make] at found
      simp [make, value, different, found]

/-- Only an entry with an `=` has a key, and it is the key, the `=` and the
value. -/
theorem eq_make_of_key? {entry key : Text} (found : key? entry = some key) :
    entry = make key (value entry) ∧ '=' ∉ key := by
  induction entry generalizing key with
  | nil => simp [key?] at found
  | cons head tail induction =>
      by_cases equal : head = '='
      · subst head
        simp only [key?, if_true, Option.some.injEq] at found
        subst key
        simp [make, value]
      · simp only [key?, equal, if_false, Option.map_eq_some_iff] at found
        rcases found with ⟨rest, found, rfl⟩
        have parts := induction found
        refine ⟨?_, ?_⟩
        · simp only [value, equal, if_false]
          simp only [make] at parts ⊢
          rw [List.cons_append, ← parts.1]
        · simp only [List.mem_cons, not_or]
          exact ⟨fun same => equal same.symm, parts.2⟩

end Entry

end LedgerGovernance
