import LedgerGovernance.Record.Lookup

/-! Two readers, one answer. `findValue` reads through the text of a record once and
never takes it apart; a draft splits the record first and searches its entries. They
agree on every text and every key, so whatever is said of a draft is said of the
record that it was made of. -/

namespace LedgerGovernance

namespace Entry

@[simp] theorem key?_nil : key? [] = none := rfl

@[simp] theorem key?_separator (rest : Text) : key? ('=' :: rest) = some [] := by
  simp [key?]

@[simp] theorem value_separator (rest : Text) : value ('=' :: rest) = rest := by
  simp [value]

theorem key?_cons {character : Char} (different : character ≠ '=') (rest : Text) :
    key? (character :: rest) = (key? rest).map (character :: ·) := by
  simp [key?, different]

theorem value_cons {character : Char} (different : character ≠ '=') (rest : Text) :
    value (character :: rest) = value rest := by
  simp [value, different]

end Entry

namespace Record

/-- The value of the first entry with a key. -/
def firstValue (key : Text) (entries : List Text) : Option Text :=
  (entries.find? (Draft.hasKey key)).map Entry.value

theorem firstValue_cons (key entry : Text) (entries : List Text) :
    firstValue key (entry :: entries) =
      if Entry.key? entry = some key then some (Entry.value entry)
      else firstValue key entries := by
  by_cases found : Entry.key? entry = some key <;>
    simp [firstValue, Draft.hasKey, found]

/-- Empty entries have no key, so leaving them out changes no answer. -/
theorem firstValue_filter (key : Text) (entries : List Text) :
    firstValue key (entries.filter (· ≠ [])) = firstValue key entries := by
  induction entries with
  | nil => rfl
  | cons entry entries induction =>
      cases entry with
      | nil => simpa [firstValue_cons] using induction
      | cons head tail =>
          rw [List.filter_cons_of_pos (by simp), firstValue_cons, firstValue_cons, induction]

/-! ## One pass over the text -/

/-- What the scan answers from the middle of an entry: the entry at hand counts if
the rest of its key is still pending, and otherwise the entries behind it. -/
private def scanned (key : Text) (pending : Option Text) : List Text → Option Text
  | [] => none
  | entry :: entries =>
      if pending.isSome ∧ Entry.key? entry = pending then some (Entry.value entry)
      else firstValue key entries

private theorem scanned_key (key : Text) (entries : List Text) :
    scanned key (some key) entries = firstValue key entries := by
  cases entries with
  | nil => rfl
  | cons entry entries => simp [scanned, firstValue_cons]

/-- The entry at hand goes up to the next separator. -/
private theorem splitOn_eq_takeWhile_cons (text : Text) :
    ∃ entries, List.splitOn ';' text = text.takeWhile (· ≠ ';') :: entries := by
  induction text with
  | nil => exact ⟨[], rfl⟩
  | cons character text induction =>
      rcases induction with ⟨entries, split⟩
      rw [List.splitOn_cons_eq_if_modifyHead]
      by_cases separator : character = ';'
      · exact ⟨List.splitOn ';' text, by simp [separator]⟩
      · exact ⟨entries, by simp [separator, split]⟩

private theorem scan_eq_scanned (key : Text) (pending : Option Text) (text : Text) :
    scan key pending text = scanned key pending (List.splitOn ';' text) := by
  induction text generalizing pending with
  | nil => cases pending <;> simp [scan, scanned, firstValue]
  | cons character text induction =>
      rcases splitOn_eq_takeWhile_cons text with ⟨entries, split⟩
      rw [List.splitOn_cons_eq_if_modifyHead]
      by_cases separator : character = ';'
      · -- A separator ends the entry at hand, whatever was pending.
        subst separator
        have next := (induction (some key)).trans (scanned_key key _)
        cases pending with
        | none => simp [scan, scanned, next]
        | some pending => cases pending <;> simp [scan, scanned, next]
      · rw [if_neg (by simpa using separator), split, List.modifyHead_cons]
        have skipped := induction none
        rw [split] at skipped
        by_cases equals : character = '='
        · subst equals
          cases pending with
          | none => simpa [scan, scanned] using skipped
          | some pending =>
              cases pending with
              | nil => simp [scan, scanned]
              | cons expected pending => simpa [scan, scanned] using skipped
        · cases pending with
          | none => simpa [scan, scanned, separator, equals] using skipped
          | some pending =>
              cases pending with
              | nil =>
                  simpa [scan, scanned, separator, equals, Entry.key?_cons] using skipped
              | cons expected pending =>
                  by_cases same : expected = character
                  · subst same
                    have continued := induction (some pending)
                    rw [split] at continued
                    simp [scan, scanned, equals, Entry.key?_cons, Entry.value_cons,
                      continued]
                  · have departed : ¬ character = expected := fun equal => same equal.symm
                    simpa [scan, scanned, separator, equals, Entry.key?_cons, same,
                      departed] using skipped

/-- Reading through a record finds what searching its entries finds. -/
theorem findValue_eq_get? (record key : Text) :
    findValue record key = (Draft.ofRecord record).get? key := by
  rw [findValue, scan_eq_scanned, scanned_key]
  exact (firstValue_filter key _).symm

theorem contains_eq_hasKey (record key : Text) :
    (Draft.ofRecord record).contains key = hasKey record key := by
  rw [hasKey, findValue_eq_get?, Draft.contains]

end Record

end LedgerGovernance
