import LedgerGovernance.Proofs.Number
import LedgerGovernance.Proofs.Record.Lookup
import Mathlib.Logic.Function.Basic

/-! What an edit changes, seen through reading. An edit of a draft changes the answer
for its own key only, and a draft of whole entries is read back from its own text. No
record is too odd for this: repeated keys, empty entries and entries without a key are
all covered. -/

namespace LedgerGovernance

/-! ## Text that may be written -/

namespace Entry

theorem separator_not_mem_of_plain {text : Text} (plain : text.all isPlain = true) :
    ';' ∉ text ∧ '=' ∉ text := by
  have each := List.all_eq_true.mp plain
  constructor
  · intro member
    exact absurd (each _ member) (by decide)
  · intro member
    exact absurd (each _ member) (by decide)

theorem printable_of_plain {text : Text} (plain : text.all isPlain = true) :
    ∀ character ∈ text, ' ' ≤ character ∧ character ≤ '~' := by
  intro character member
  have passes := List.all_eq_true.mp plain character member
  simp only [isPlain, Bool.and_eq_true, decide_eq_true_eq] at passes
  exact passes.1.1

end Entry

namespace Draft

/-- A key and a value that a written entry may consist of. -/
structure Writable (key value : Text) : Prop where
  key_ne_nil : key ≠ []
  key_plain : key.all Entry.isPlain = true
  value_plain : value.all Entry.isPlain = true

namespace Writable

variable {key value : Text}

theorem equals_not_mem_key (writable : Writable key value) : '=' ∉ key :=
  (Entry.separator_not_mem_of_plain writable.key_plain).2

theorem key?_make (writable : Writable key value) :
    Entry.key? (Entry.make key value) = some key :=
  Entry.key?_make writable.equals_not_mem_key value

theorem value_make (writable : Writable key value) :
    Entry.value (Entry.make key value) = value :=
  Entry.value_make writable.equals_not_mem_key value

theorem hasKey_make (writable : Writable key value) (other : Text) :
    hasKey other (Entry.make key value) = decide (key = other) := by
  simp [hasKey, writable.key?_make]

theorem separator_not_mem_make (writable : Writable key value) :
    ';' ∉ Entry.make key value := by
  have keyFree := (Entry.separator_not_mem_of_plain writable.key_plain).1
  have valueFree := (Entry.separator_not_mem_of_plain writable.value_plain).1
  simp [Entry.make, keyFree, valueFree]

end Writable

theorem checkEntry_eq_ok {key value : Text} {checked : Unit} :
    checkEntry key value = .ok checked ↔ Writable key value := by
  constructor
  · intro passed
    unfold checkEntry at passed
    split at passed
    · cases passed
    · rename_i keyPasses
      split at passed
      · cases passed
      · rename_i valuePasses
        simp only [not_or, Decidable.not_not] at keyPasses valuePasses
        exact ⟨keyPasses.1, keyPasses.2, valuePasses⟩
  · intro writable
    simp [checkEntry, writable.key_ne_nil, writable.key_plain, writable.value_plain]

/-- What may not be written is refused as ill-typed. -/
theorem checkEntry_of_not_writable {key value : Text} (unwritable : ¬ Writable key value) :
    ∃ argument, checkEntry key value = .error (.illTyped argument) := by
  cases checked : checkEntry key value with
  | ok passed => exact absurd (checkEntry_eq_ok.mp checked) unwritable
  | error fault =>
      unfold checkEntry at checked
      split at checked
      · cases checked
        exact ⟨_, rfl⟩
      · split at checked
        · cases checked
          exact ⟨_, rfl⟩
        · cases checked

/-! ## Drafts that are read back as they are -/

/-- The entries of a draft are whole: none is empty, and none holds a separator. -/
def Whole (draft : Draft) : Prop :=
  ∀ entry ∈ draft.entries, entry ≠ [] ∧ ';' ∉ entry

private theorem separator_not_mem_of_mem_splitOn {record entry : Text}
    (member : entry ∈ record.splitOn ';') : ';' ∉ entry := by
  induction record generalizing entry with
  | nil =>
      simp only [List.splitOn_nil, List.mem_singleton] at member
      subst member
      simp
  | cons character record induction =>
      rw [List.splitOn_cons_eq_if_modifyHead] at member
      by_cases separator : character = ';'
      · rw [if_pos (by simpa using separator)] at member
        rcases List.mem_cons.mp member with equal | member
        · simp [equal]
        · exact induction member
      · rw [if_neg (by simpa using separator)] at member
        cases split : record.splitOn ';' with
        | nil => exact absurd split (List.splitOn_ne_nil _ _)
        | cons first rest =>
            rw [split, List.modifyHead_cons] at member
            rcases List.mem_cons.mp member with equal | member
            · have firstFree : ';' ∉ first := induction (split ▸ List.mem_cons_self)
              have different : ¬ ';' = character := fun same => separator same.symm
              simp [equal, firstFree, different]
            · exact induction (split ▸ List.mem_cons_of_mem _ member)

theorem whole_ofRecord (record : Text) : (ofRecord record).Whole := by
  intro entry member
  rcases List.mem_filter.mp member with ⟨member, nonempty⟩
  exact ⟨by simpa using nonempty, separator_not_mem_of_mem_splitOn member⟩

/-- A draft of whole entries is what its own text is split into. -/
theorem ofRecord_toRecord {draft : Draft} (whole : draft.Whole) :
    ofRecord draft.toRecord = draft := by
  rcases draft with ⟨entries⟩
  have kept : entries.filter (· ≠ []) = entries := by
    apply List.filter_eq_self.mpr
    intro entry member
    simpa using (whole entry member).1
  cases entries with
  | nil => rfl
  | cons first rest =>
      have split := List.splitOn_intercalate ';'
        (fun entry member => (whole entry member).2) (List.cons_ne_nil first rest)
      simp only [ofRecord, toRecord, split, kept]

theorem encode_eq_ok {draft : Draft} {capacity : Number} {record : Text} :
    draft.encode capacity = .ok record ↔
      ¬ capacity < (Text.utf8Size draft.toRecord : Number) ∧ draft.toRecord = record := by
  by_cases full : capacity < (Text.utf8Size draft.toRecord : Number) <;> simp [encode, full]

/-- A draft is written where there is room for its text. -/
theorem encode_of_le {draft : Draft} {capacity : Number}
    (fits : (Text.utf8Size draft.toRecord : Number) ≤ capacity) :
    draft.encode capacity = .ok draft.toRecord :=
  encode_eq_ok.mpr ⟨(Number.natCast_le_iff.mp fits).2, rfl⟩

/-! ## Single edits -/

theorem get?_remove (draft : Draft) (key : Text) :
    (draft.remove key).get? = Function.update draft.get? key none := by
  funext other
  by_cases same : other = key
  · subst same
    have removed : (draft.entries.filter fun entry => !hasKey other entry).find?
        (hasKey other) = none := by simp
    simp [get?, remove, removed]
  · have kept : ∀ entry, (!hasKey key entry && hasKey other entry) = hasKey other entry := by
      intro entry
      by_cases found : Entry.key? entry = some other
      · simp [hasKey, found, same]
      · simp [hasKey, found]
    simp only [get?, remove, List.find?_filter, Function.update_of_ne same]
    simp only [Bool.decide_and, Bool.decide_eq_true, kept]

theorem get?_overwrite {draft : Draft} {key value : Text} (writable : Writable key value)
    (present : draft.contains key = true) :
    (draft.overwrite key value).get? = Function.update draft.get? key (some value) := by
  funext other
  have still : hasKey other ∘ (fun entry =>
      if hasKey key entry then Entry.make key value else entry) = hasKey other := by
    funext entry
    by_cases found : Entry.key? entry = some key
    · simp [hasKey, found, writable.key?_make]
    · simp [hasKey, found]
  simp only [get?, overwrite, List.find?_map, still, Option.map_map]
  by_cases same : other = key
  · subst same
    have found : (draft.entries.find? (hasKey other)).isSome = true := by
      simpa [contains, get?] using present
    rcases Option.isSome_iff_exists.mp found with ⟨entry, found⟩
    have matching : hasKey other entry = true := List.find?_some found
    simp [found, matching, writable.value_make]
  · rw [Function.update_of_ne same]
    cases found : draft.entries.find? (hasKey other) with
    | none => simp [get?, found]
    | some entry =>
        have matching : Entry.key? entry = some other := by
          simpa [hasKey] using List.find?_some found
        simp [get?, found, hasKey, matching, same]

/-- Entries that are chosen so that none has the key are not touched by writing over it. -/
theorem filter_overwrite {draft : Draft} {key value : Text} (writable : Writable key value)
    {chosen : Text → Bool} (apart : ∀ entry, hasKey key entry = true → chosen entry = false) :
    (draft.overwrite key value).entries.filter chosen = draft.entries.filter chosen := by
  have written : chosen (Entry.make key value) = false :=
    apart _ (by rw [writable.hasKey_make, decide_eq_true rfl])
  have test : (chosen ∘ fun entry =>
      if hasKey key entry then Entry.make key value else entry) = chosen := by
    funext entry
    cases found : hasKey key entry with
    | true => simp [found, written, apart entry found]
    | false => simp [found]
  have kept : ∀ entry ∈ draft.entries.filter chosen,
      (if hasKey key entry then Entry.make key value else entry) = entry := by
    intro entry member
    cases found : hasKey key entry with
    | true =>
        have passes := (List.mem_filter.mp member).2
        rw [apart entry found] at passes
        cases passes
    | false => rw [if_neg Bool.false_ne_true]
  rw [overwrite, List.filter_map, test]
  exact (List.map_congr_left kept).trans (List.map_id _)

/-- Nor are they touched by removing it. -/
theorem filter_remove {draft : Draft} {key : Text} {chosen : Text → Bool}
    (apart : ∀ entry, hasKey key entry = true → chosen entry = false) :
    (draft.remove key).entries.filter chosen = draft.entries.filter chosen := by
  rw [remove, List.filter_filter]
  apply List.filter_congr
  intro entry _
  cases found : hasKey key entry with
  | true => rw [apart entry found, Bool.false_and]
  | false => rw [Bool.not_false, Bool.and_true]

theorem contains_eq_false {draft : Draft} {key : Text} :
    draft.contains key = false ↔ ∀ entry ∈ draft.entries, hasKey key entry = false := by
  simp [contains, get?]

/-- Writing over nothing changes nothing. -/
theorem overwrite_eq_self {draft : Draft} {key : Text} (absent : draft.contains key = false)
    (value : Text) : draft.overwrite key value = draft := by
  have same : ∀ entry ∈ draft.entries,
      (if hasKey key entry then Entry.make key value else entry) = entry := by
    intro entry member
    rw [if_neg (by simp [contains_eq_false.mp absent entry member])]
  rcases draft with ⟨entries⟩
  exact congrArg Draft.mk ((List.map_congr_left same).trans (List.map_id entries))

/-- An appended entry is found only where its key was missing. -/
theorem get?_append (draft : Draft) {key value : Text} (writable : Writable key value) :
    (Draft.mk (draft.entries ++ [Entry.make key value])).get? =
      Function.update draft.get? key ((draft.get? key).or (some value)) := by
  funext other
  have split : (Draft.mk (draft.entries ++ [Entry.make key value])).get? other =
      (draft.get? other).or ((Draft.mk [Entry.make key value]).get? other) := by
    rw [get?, List.find?_append, Option.map_or]
    rfl
  rw [split]
  by_cases same : other = key
  · subst same
    rw [Function.update_self]
    simp [get?, writable.hasKey_make, writable.value_make]
  · have apart : ¬ key = other := fun equal => same equal.symm
    rw [Function.update_of_ne same]
    simp [get?, writable.hasKey_make, apart]

/-! ## Whole drafts stay whole -/

theorem Whole.remove {draft : Draft} (whole : draft.Whole) (key : Text) :
    (draft.remove key).Whole :=
  fun entry member => whole entry (List.mem_filter.mp member).1

theorem Writable.make_whole {key value : Text} (writable : Writable key value) :
    Entry.make key value ≠ [] ∧ ';' ∉ Entry.make key value :=
  ⟨by simp [Entry.make], writable.separator_not_mem_make⟩

theorem Whole.overwrite {draft : Draft} (whole : draft.Whole) {key value : Text}
    (writable : Writable key value) : (draft.overwrite key value).Whole := by
  intro entry member
  rcases List.mem_map.mp member with ⟨original, originalMember, rfl⟩
  by_cases found : hasKey key original = true
  · rw [if_pos found]
    exact writable.make_whole
  · rw [if_neg found]
    exact whole original originalMember

theorem Whole.append {draft : Draft} (whole : draft.Whole) {key value : Text}
    (writable : Writable key value) :
    (Draft.mk (draft.entries ++ [Entry.make key value])).Whole := by
  intro entry member
  rcases List.mem_append.mp member with old | new
  · exact whole entry old
  · rw [List.mem_singleton.mp new]
    exact writable.make_whole

/-! ## Edits by what they are asked for -/

theorem replace?_eq_ok {draft : Draft} {key value : Text} {replaced : Option Draft} :
    draft.replace? key value = .ok replaced ↔
      Writable key value ∧
        (if draft.contains key then some (draft.overwrite key value) else none) = replaced := by
  simp [replace?, Outcome.map_eq_ok, checkEntry_eq_ok]

theorem append_eq_ok {draft : Draft} {key value : Text} {appended : Draft} :
    draft.append key value = .ok appended ↔
      Writable key value ∧ ⟨draft.entries ++ [Entry.make key value]⟩ = appended := by
  simp [append, Outcome.map_eq_ok, checkEntry_eq_ok]

theorem set_of_contains {draft : Draft} {key value : Text}
    (present : draft.contains key = true) (writable : Writable key value) :
    draft.set key value = .ok (draft.overwrite key value) := by
  have replaced : draft.replace? key value = .ok (some (draft.overwrite key value)) :=
    replace?_eq_ok.mpr ⟨writable, if_pos present⟩
  rw [set, replaced]
  rfl

theorem set_of_absent {draft : Draft} {key value : Text}
    (absent : draft.contains key = false) (writable : Writable key value) :
    draft.set key value = .ok ⟨draft.entries ++ [Entry.make key value]⟩ := by
  have replaced : draft.replace? key value = .ok none :=
    replace?_eq_ok.mpr ⟨writable, if_neg (by simp [absent])⟩
  rw [set, replaced]
  exact append_eq_ok.mpr ⟨writable, rfl⟩

end Draft

end LedgerGovernance
