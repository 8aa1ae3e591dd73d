import LedgerGovernance.Proofs.Record.Edits

/-! What one edit does to a record as a store of values under keys. The writer takes the text
apart and joins it again, the reader goes through it once: that a value is found where it was
put, and that nothing else is found anew or lost, holds of any text, with keys that repeat,
that begin one another or that are no keys at all. -/

namespace LedgerGovernance

namespace Record

/-- The entries of a record, but for empty ones, in their order. -/
def parts (record : Text) : List Text :=
  (Draft.ofRecord record).entries

/-- The entries with another key and those without one. -/
def others (record key : Text) : List Text :=
  (parts record).filter fun entry => !Draft.hasKey key entry

/-- The value is found under the key. Where the key was present, each of its entries is
written over at its place; where it was not, one entry stands behind all others. -/
structure Rewritten (record key value next : Text) : Prop where
  answers : findValue next = Function.update (findValue record) key (some value)
  others_eq : others next key = others record key
  in_place : hasKey record key = true →
    (parts next).length = (parts record).length ∧
      ∀ (place : Nat) (entry : Text), (parts record)[place]? = some entry →
        (parts next)[place]? =
          some (if Draft.hasKey key entry then Entry.make key value else entry)
  at_end : hasKey record key = false → parts next = parts record ++ [Entry.make key value]

/-- Nothing is found under the key, and only its entries are gone. -/
structure Removed (record key next : Text) : Prop where
  answers : findValue next = Function.update (findValue record) key none
  parts_eq : parts next = others record key

/-- The value is found under the key unless one was found before. -/
structure Appended (record key value next : Text) : Prop where
  answers : findValue next =
    Function.update (findValue record) key ((findValue record key).or (some value))
  parts_eq : parts next = parts record ++ [Entry.make key value]

variable {draft : Draft} {key value : Text}

/-! ## Drafts and their texts -/

theorem findValue_toRecord (whole : draft.Whole) : findValue draft.toRecord = draft.get? := by
  funext key
  rw [findValue_eq_get?, Draft.ofRecord_toRecord whole]

theorem findValue_eq (record : Text) : findValue record = (Draft.ofRecord record).get? :=
  funext (findValue_eq_get? record)

theorem parts_toRecord (whole : draft.Whole) : parts draft.toRecord = draft.entries := by
  rw [parts, Draft.ofRecord_toRecord whole]

/-- An edit of a fresh draft gives its text wherever that fits. -/
theorem encoded_of_ok {outcome : Outcome Draft} (done : outcome = .ok draft) {capacity : Number}
    (fits : (Text.utf8Size draft.toRecord : Number) ≤ capacity) :
    (outcome >>= fun draft => draft.encode capacity) = .ok draft.toRecord :=
  Outcome.bind_eq_ok.mpr ⟨draft, done, Draft.encode_of_le fits⟩

/-! ## The three edits -/

theorem rewritten_of_present (record : Text) (writable : Draft.Writable key value)
    (present : (Draft.ofRecord record).contains key = true) :
    Rewritten record key value ((Draft.ofRecord record).overwrite key value).toRecord := by
  have overwritten := (Draft.whole_ofRecord record).overwrite writable
  have parts_eq := parts_toRecord overwritten
  refine ⟨?_, ?_, fun _ => ⟨?_, fun place entry found => ?_⟩, fun absent => ?_⟩
  · rw [findValue_toRecord overwritten, Draft.get?_overwrite writable present, findValue_eq]
  · rw [others, parts_eq]
    exact Draft.filter_overwrite writable fun entry found => by rw [found, Bool.not_true]
  · rw [parts_eq, Draft.overwrite, List.length_map, parts]
  · rw [parts_eq, Draft.overwrite, List.getElem?_map]
    exact congrArg (Option.map _) found
  · rw [← contains_eq_hasKey, present] at absent
    exact Bool.noConfusion absent

theorem rewritten_of_absent (record : Text) (writable : Draft.Writable key value)
    (absent : (Draft.ofRecord record).contains key = false) :
    Rewritten record key value
      (Draft.mk ((Draft.ofRecord record).entries ++ [Entry.make key value])).toRecord := by
  have appended := (Draft.whole_ofRecord record).append writable
  have parts_eq := parts_toRecord appended
  have missing : (Draft.ofRecord record).get? key = none := by
    simpa [Draft.contains] using absent
  refine ⟨?_, ?_, fun found => ?_, fun _ => parts_eq⟩
  · rw [findValue_toRecord appended, Draft.get?_append _ writable, findValue_eq, missing,
      Option.none_or]
  · have dropped : [Entry.make key value].filter (fun entry => !Draft.hasKey key entry) = [] := by
      simp [writable.hasKey_make]
    rw [others, parts_eq, List.filter_append, dropped, List.append_nil, others, parts]
  · rw [← contains_eq_hasKey, absent] at found
    exact Bool.noConfusion found

theorem exists_rewritten (record : Text) (writable : Draft.Writable key value) :
    ∃ next, (∀ capacity : Number, (Text.utf8Size next : Number) ≤ capacity →
      setEntry record key value capacity = .ok next) ∧ Rewritten record key value next := by
  cases present : (Draft.ofRecord record).contains key with
  | true =>
      exact ⟨_, fun capacity fits => encoded_of_ok (Draft.set_of_contains present writable) fits,
        rewritten_of_present record writable present⟩
  | false =>
      exact ⟨_, fun capacity fits => encoded_of_ok (Draft.set_of_absent present writable) fits,
        rewritten_of_absent record writable present⟩

theorem removed (record key : Text) : Removed record key (removeEntry record key) := by
  have kept := (Draft.whole_ofRecord record).remove key
  constructor
  · rw [removeEntry, findValue_toRecord kept, Draft.get?_remove, findValue_eq]
  · rw [removeEntry, parts_toRecord kept, Draft.remove, others, parts]

theorem exists_appended (record : Text) (writable : Draft.Writable key value) :
    ∃ next, (∀ capacity : Number, (Text.utf8Size next : Number) ≤ capacity →
      appendEntry record key value capacity = .ok next) ∧ Appended record key value next := by
  have appended := (Draft.whole_ofRecord record).append writable
  refine ⟨_, fun capacity fits =>
    encoded_of_ok (Draft.append_eq_ok.mpr ⟨writable, rfl⟩) fits, ?_, parts_toRecord appended⟩
  rw [findValue_toRecord appended, Draft.get?_append _ writable, findValue_eq]

/-- A record answers as a store of values under keys. Given room, a writable entry can be set
and appended, and any key can be removed; each changes the answer for its own key only, and
the entries of all other keys and of none keep their text and order. -/
theorem key_value_laws (record : Text) (writable : Draft.Writable key value) :
    (∃ next, (∀ capacity : Number, (Text.utf8Size next : Number) ≤ capacity →
        setEntry record key value capacity = .ok next) ∧ Rewritten record key value next) ∧
    Removed record key (removeEntry record key) ∧
    ∃ next, (∀ capacity : Number, (Text.utf8Size next : Number) ≤ capacity →
        appendEntry record key value capacity = .ok next) ∧ Appended record key value next :=
  ⟨exists_rewritten record writable, removed record key, exists_appended record writable⟩

/-- The key stands twice, and a longer key begins with it. -/
theorem repeated_key_value_laws :
    let record := ";a=1;;junk;a=2;=x;ab=3;".toList
    let value := "9:9".toList
    setEntry record ['a'] value 24 = .ok "a=9:9;junk;a=9:9;=x;ab=3".toList ∧
      Rewritten record ['a'] value "a=9:9;junk;a=9:9;=x;ab=3".toList ∧
      Removed record ['a'] "junk;=x;ab=3".toList ∧
      Appended record ['a'] value "a=1;junk;a=2;=x;ab=3;a=9:9".toList := by
  intro record value
  have writable : Draft.Writable ['a'] value := Draft.checkEntry_eq_ok.mp rfl
  rcases key_value_laws record writable with
    ⟨⟨rewrittenText, writing, rewritten⟩, removed, appendedText, appending, appended⟩
  have gone : removeEntry record ['a'] = "junk;=x;ab=3".toList := rfl
  -- Without a bound the texts are seen, and the laws are about the same texts.
  have set : setEntry record ['a'] value (.infinite false) =
      .ok "a=9:9;junk;a=9:9;=x;ab=3".toList := rfl
  have added : appendEntry record ['a'] value (.infinite false) =
      .ok "a=1;junk;a=2;=x;ab=3;a=9:9".toList := rfl
  rw [writing _ rfl] at set
  rw [appending _ rfl] at added
  cases set
  cases added
  exact ⟨writing 24 (by decide +kernel), rewritten, gone ▸ removed, appended⟩

end Record

end LedgerGovernance
