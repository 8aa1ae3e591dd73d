import LedgerGovernance.Proofs.Record.Revisions
import Mathlib.Algebra.Order.Ring.Nat

/-! What a revision writes, entry by entry. Reading tells the first entry under a key only;
here every entry counts, the repeated and the shadowed ones too. Whatever stands in a
revised record stood there before or was written, so what all entries under a key have in
common stays common to them. -/

namespace LedgerGovernance

/-! ## The size of joined texts -/

theorem utf8Size_intercalate_cons (separator first : Text) (rest : List Text) :
    Text.utf8Size (separator.intercalate (first :: rest)) = Text.utf8Size first +
      ((rest.map Text.utf8Size).map (Text.utf8Size separator + ·)).sum := by
  induction rest generalizing first with
  | nil => simp
  | cons second rest induction =>
      rw [List.intercalate_cons_cons, Text.utf8Size_append, Text.utf8Size_append, induction,
        List.map_cons, List.map_cons, List.sum_cons]
      omega

/-- The size of joined texts depends on their sizes only. -/
private theorem utf8Size_intercalate (separator : Text) {left right : List Text}
    (same : left.map Text.utf8Size = right.map Text.utf8Size) :
    Text.utf8Size (separator.intercalate left) =
      Text.utf8Size (separator.intercalate right) := by
  cases left with
  | nil =>
      cases right with
      | nil => rfl
      | cons => cases same
  | cons first left =>
      cases right with
      | nil => cases same
      | cons second right =>
          rw [List.map_cons, List.map_cons, List.cons.injEq] at same
          rw [utf8Size_intercalate_cons, utf8Size_intercalate_cons, same.1, same.2]

namespace Draft

variable {writes : Key → Text → Prop} {draft middle edited : Draft} {key : Key} {value : Text}

/-! ## Entries under a key -/

/-- Every entry under a key has a value that passes the test. -/
def AllUnder (draft : Draft) (key : Key) (test : Text → Prop) : Prop :=
  ∀ entry ∈ draft.entries, hasKey key.text entry = true → test (Entry.value entry)

theorem AllUnder.mono {test other : Text → Prop} (all : draft.AllUnder key test)
    (implies : ∀ value, test value → other value) : draft.AllUnder key other :=
  fun entry member found => implies _ (all entry member found)

/-- Where every entry under a key has a value of one size, another value of that size
leaves the size of the whole. -/
theorem utf8Size_overwrite
    (all : draft.AllUnder key fun old => Text.utf8Size old = Text.utf8Size value) :
    Text.utf8Size (draft.overwrite key.text value).toRecord =
      Text.utf8Size draft.toRecord := by
  apply utf8Size_intercalate
  rw [overwrite, List.map_map]
  apply List.map_congr_left
  intro entry member
  by_cases found : hasKey key.text entry = true
  · rw [Function.comp_apply, if_pos found]
    have shape := (Entry.eq_make_of_key? (by simpa [hasKey] using found)).1
    rw [shape, Entry.make, Entry.make, Text.utf8Size_append, Text.utf8Size_append]
    simp [all entry member found]
  · rw [Function.comp_apply, if_neg found]

/-- What all entries under a key had in common can be put back. -/
theorem overwrite_overwrite {old new : Text} (all : draft.AllUnder key (· = old)) :
    (draft.overwrite key.text new).overwrite key.text old = draft := by
  have free : '=' ∉ key.text := (Entry.separator_not_mem_of_plain key.text_plain).2
  have same : ∀ entry ∈ draft.entries, (if hasKey key.text
      (if hasKey key.text entry then Entry.make key.text new else entry) then
        Entry.make key.text old
      else if hasKey key.text entry then Entry.make key.text new else entry) = entry := by
    intro entry member
    by_cases found : hasKey key.text entry = true
    · have written : hasKey key.text (Entry.make key.text new) = true := by
        simp [hasKey, Entry.key?_make free]
      rw [if_pos found, if_pos written]
      have shape := (Entry.eq_make_of_key? (by simpa [hasKey] using found)).1
      rw [all entry member found] at shape
      exact shape.symm
    · rw [if_neg found, if_neg found]
  rcases draft with ⟨entries⟩
  simp only [overwrite, List.map_map, Draft.mk.injEq]
  exact (List.map_congr_left same).trans (List.map_id entries)

/-! ## Edited drafts -/

/-- A draft that came of another one: each of its entries was there or was written, and
where nothing may be written it answers as before. -/
structure Edited (writes : Key → Text → Prop) (draft edited : Draft) : Prop where
  whole : edited.Whole
  mem_or : ∀ entry ∈ edited.entries, entry ∈ draft.entries ∨
    ∃ key value, writes key value ∧ entry = Entry.make key.text value
  get?_eq : ∀ key : Key, (∀ value, ¬ writes key value) →
    edited.get? key.text = draft.get? key.text

/-- A revision writes the rewritten key and what it appends. A key that is dropped is
allowed with the empty value. -/
theorem Revised.edits {text : Option Text} {added : List (Key × Text)}
    (revised : draft.Revised key text added edited) (whole : draft.Whole)
    (front : writes key (text.getD [])) (behind : ∀ pair ∈ added, writes pair.1 pair.2) :
    Edited writes draft edited := by
  refine ⟨revised.whole whole, fun entry member => ?_, fun other unwritten => ?_⟩
  · rw [revised.entries_eq] at member
    rcases List.mem_append.mp member with old | new
    · cases text with
      | none => exact .inl (List.mem_filter.mp old).1
      | some text =>
          rcases List.mem_map.mp old with ⟨original, originalMember, rfl⟩
          by_cases found : hasKey key.text original = true
          · rw [if_pos found]
            exact .inr ⟨key, text, front, rfl⟩
          · rw [if_neg found]
            exact .inl originalMember
    · rcases List.mem_map.mp new with ⟨pair, pairMember, rfl⟩
      exact .inr ⟨pair.1, pair.2, behind pair pairMember, rfl⟩
  · have apart {written : Key} {value : Text} (allowed : writes written value) :
        other ≠ written := fun same => unwritten value (same ▸ allowed)
    exact revised.get?_of_ne (apart front) fun pair member => apart (behind pair member)

namespace Edited

theorem allUnder (edited : Edited writes draft middle) {test : Text → Prop}
    (all : draft.AllUnder key test) (passes : ∀ value, writes key value → test value) :
    middle.AllUnder key test := by
  intro entry member found
  rcases edited.mem_or entry member with old | ⟨other, written, allowed, rfl⟩
  · exact all entry old found
  · have free : '=' ∉ other.text := (Entry.separator_not_mem_of_plain other.text_plain).2
    have same : other.text = key.text := by
      simpa [hasKey, Entry.key?_make free] using found
    cases Key.text_injective same
    rw [Entry.value_make free]
    exact passes written allowed

end Edited

end Draft

/-! ## Written records -/

namespace Record

variable {writes : Key → Text → Prop} {capacity : Nat} {record middle next : Text} {key : Key}
  {value : Text}

/-- A record that was made of another one by writing entries. -/
structure Written (writes : Key → Text → Prop) (capacity : Nat) (record next : Text) :
    Prop where
  encoded : Encoded capacity next
  edited : Draft.Edited writes (Draft.ofRecord record) (Draft.ofRecord next)

/-- Every entry under a key has a value that passes the test. -/
def AllUnder (record : Text) (key : Key) (test : Text → Prop) : Prop :=
  (Draft.ofRecord record).AllUnder key test

namespace Written

theorem read?_eq (written : Written writes capacity record next)
    (unwritten : ∀ value, ¬ writes key value) : read? next key = read? record key := by
  rw [read?, read?, findValue_eq_get?, findValue_eq_get?]
  exact written.edited.get?_eq key unwritten

theorem allUnder (written : Written writes capacity record next) {test : Text → Prop}
    (all : AllUnder record key test) (passes : ∀ value, writes key value → test value) :
    AllUnder next key test :=
  written.edited.allUnder all passes

theorem mono {others : Key → Text → Prop} (written : Written writes capacity record next)
    (implies : ∀ key value, writes key value → others key value) :
    Written others capacity record next where
  encoded := written.encoded
  edited := {
    whole := written.edited.whole
    mem_or := fun entry member =>
      (written.edited.mem_or entry member).imp_right fun ⟨key, value, allowed, same⟩ =>
        ⟨key, value, implies key value allowed, same⟩
    get?_eq := fun key unwritten => written.edited.get?_eq key fun value allowed =>
      unwritten value (implies key value allowed) }

theorem trans (first : Written writes capacity record middle)
    (second : Written writes capacity middle next) : Written writes capacity record next where
  encoded := second.encoded
  edited := {
    whole := second.edited.whole
    mem_or := fun entry member =>
      (second.edited.mem_or entry member).elim (first.edited.mem_or entry) .inr
    get?_eq := fun key unwritten =>
      (second.edited.get?_eq key unwritten).trans (first.edited.get?_eq key unwritten) }

end Written

theorem allUnder_nil (key : Key) (test : Text → Prop) : AllUnder [] key test := nofun

theorem Revised.written {text : Option Text} {added : List (Key × Text)}
    (revised : Revised capacity record key text added next) (front : writes key (text.getD []))
    (behind : ∀ pair ∈ added, writes pair.1 pair.2) : Written writes capacity record next where
  encoded := revised.encoded
  edited := revised.edited.edits (Draft.whole_ofRecord record) front behind

theorem Put.written (put : Put capacity record key value next) (allowed : writes key value) :
    Written writes capacity record next := by
  apply Revised.written put allowed
  intro pair member
  rw [mem_lacking member]
  exact allowed

/-- Once a value was put, every entry under its key has it. -/
theorem Put.allUnder (put : Put capacity record key value next) :
    AllUnder next key (· = value) := by
  have free : '=' ∉ key.text := (Entry.separator_not_mem_of_plain key.text_plain).2
  intro entry member found
  rw [put.edited.entries_eq] at member
  rcases List.mem_append.mp member with old | new
  · rcases List.mem_map.mp old with ⟨original, -, rfl⟩
    by_cases had : Draft.hasKey key.text original = true
    · rw [if_pos had, Entry.value_make free]
    · rw [if_neg had] at found
      exact absurd found had
  · rcases List.mem_map.mp new with ⟨pair, pairMember, rfl⟩
    rw [mem_lacking pairMember, Entry.ofPair, Entry.value_make free]

/-! ## Writing over what is there -/

theorem replace?_of_present (present : (read? record key).isSome = true)
    (plain : value.all Entry.isPlain = true) :
    (Draft.ofRecord record).replace? key.text value =
      .ok (some ((Draft.ofRecord record).overwrite key.text value)) := by
  have contained : (Draft.ofRecord record).contains key.text = true := by
    rw [contains_ofRecord, present]
  rw [Draft.replace?_eq_ok, if_pos contained]
  exact ⟨key.writable_text plain, rfl⟩

/-- An entry that is written over by one of its size still fits. -/
theorem Encoded.encode_overwrite (encoded : Encoded capacity record)
    (all : AllUnder record key fun old => Text.utf8Size old = Text.utf8Size value) :
    ((Draft.ofRecord record).overwrite key.text value).encode (capacity : Number) =
      .ok ((Draft.ofRecord record).overwrite key.text value).toRecord := by
  rw [Draft.encode_eq_ok, Draft.utf8Size_overwrite all, encoded.text_eq]
  exact ⟨fun less => Nat.not_lt_of_le encoded.fits (Number.natCast_lt.mp less), rfl⟩

end Record

end LedgerGovernance
