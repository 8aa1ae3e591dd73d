import LedgerGovernance.Proofs.Record.Lookup
import LedgerGovernance.Proofs.Units
import Mathlib.Logic.Function.Iterate

/-! Looking a key up in two ways. One search goes through a record by places and judges one
entry after the other. The other splits the record, leaves empty entries out and searches the
rest. Both end, and both find the value of the first entry whose text in front of its first `=`
is the key, in any record and for any key.

What a record is made of plays no part in this. So the searches are over lists of any symbols:
the characters of a text, or the units of a string, where places are counted in units and halves
of surrogate pairs may stand on their own. A text and its units are looked up alike. -/

namespace LedgerGovernance

/-- A search by places is under way at a place, or over with an answer. -/
inductive Search (Symbol : Type) where
  | going (place : Nat)
  | over (answer : Option (List Symbol))

namespace Lookup

variable {Symbol : Type} [DecidableEq Symbol] (separator mark : Symbol)

/-! ## The two searches -/

/-- The text of an entry in front of its first mark. -/
def keyOf? (entry : List Symbol) : Option (List Symbol) :=
  (entry.idxOf? mark).map entry.take

/-- The text of an entry behind its first mark; without a mark, all of it. -/
def valueOf (entry : List Symbol) : List Symbol :=
  entry.drop ((entry.idxOf? mark).elim 0 (· + 1))

/-- The entry that starts at a place goes up to the next separator or the end of the record. -/
def entryEnd (record : List Symbol) (place : Nat) : Nat :=
  ((record.drop place).idxOf? separator).elim record.length (place + ·)

/-- The entry at the place is judged, and the next one starts behind its separator. -/
def turn (record key : List Symbol) : Search Symbol → Search Symbol
  | .over answer => .over answer
  | .going place =>
      if place < record.length then
        let stop := entryEnd separator record place
        let entry := record.extract place stop
        if keyOf? mark entry = some key then .over (some (valueOf mark entry))
        else .going (stop + 1)
      else .over none

/-- The entry behind the second of two separators is judged in the third turn. -/
example : (turn ';' '=' ";;a=b=c;a=d".toList ['a'])^[3] (.going 0) =
    .over (some "b=c".toList) := rfl

/-- From the start of the record, the search by places comes to an end with this answer. It
takes at most one turn for each symbol, and one that sees the end. -/
def Ends (record key : List Symbol) (answer : Option (List Symbol)) : Prop :=
  ∃ turns ≤ record.length + 1,
    (turn separator mark record key)^[turns] (.going 0) = .over answer

/-- The value of the first of some entries that has the key. -/
def firstValue (key : List Symbol) (entries : List (List Symbol)) : Option (List Symbol) :=
  (entries.find? fun entry => keyOf? mark entry = some key).map (valueOf mark)

/-- The search among the entries that a record is split into, but for empty ones. -/
def amongEntries (record key : List Symbol) : Option (List Symbol) :=
  firstValue mark key ((record.splitOn separator).filter (· ≠ []))

/-! ## What they have to find -/

/-- The key is the text of the entry in front of its first mark. -/
def Keyed (key entry : List Symbol) : Prop :=
  mark ∉ key ∧ ∃ value, entry = key ++ mark :: value

/-- The value stands behind the key and the mark in an entry, and no entry before that one has
the key; or there is no value, and no entry at all has the key. -/
def IsFirst (record key : List Symbol) : Option (List Symbol) → Prop
  | some value =>
      ∃ earlier later, record.splitOn separator = earlier ++ (key ++ mark :: value) :: later ∧
        mark ∉ key ∧ ∀ entry ∈ earlier, ¬ Keyed mark key entry
  | none => ∀ entry ∈ record.splitOn separator, ¬ Keyed mark key entry

variable {separator mark} {record key value entry : List Symbol}

/-! ## Keys and values of entries -/

theorem idxOf?_append_cons {front : List Symbol} (free : mark ∉ front) (back : List Symbol) :
    (front ++ mark :: back).idxOf? mark = some front.length := by
  induction front with
  | nil => simp [List.idxOf?_cons]
  | cons first front induction =>
      rw [List.mem_cons, not_or] at free
      have different : (first == mark) = false := beq_false_of_ne fun same => free.1 same.symm
      rw [List.cons_append, List.idxOf?_cons, different, induction free.2]
      rfl

theorem keyOf?_eq_some : keyOf? mark entry = some key ↔ Keyed mark key entry := by
  constructor
  · intro found
    rcases Option.map_eq_some_iff.mp found with ⟨place, placeEq, taken⟩
    have member : mark ∈ entry := List.isSome_idxOf?.mp (by rw [placeEq]; rfl)
    rcases List.eq_append_cons_of_mem member with ⟨front, back, rfl, free⟩
    rw [idxOf?_append_cons free, Option.some.injEq] at placeEq
    subst placeEq
    rw [List.take_left] at taken
    subst taken
    exact ⟨free, back, rfl⟩
  · rintro ⟨free, value, rfl⟩
    rw [keyOf?, idxOf?_append_cons free, Option.map_some, List.take_left]

theorem valueOf_keyed (free : mark ∉ key) : valueOf mark (key ++ mark :: value) = value := by
  rw [valueOf, idxOf?_append_cons free, Option.elim_some, List.drop_append]
  simp

theorem firstValue_cons (key entry : List Symbol) (entries : List (List Symbol)) :
    firstValue mark key (entry :: entries) =
      if keyOf? mark entry = some key then some (valueOf mark entry)
      else firstValue mark key entries := by
  by_cases found : keyOf? mark entry = some key <;> simp [firstValue, found]

/-- Empty entries have no key, so leaving them out changes no answer. -/
theorem firstValue_filter (key : List Symbol) (entries : List (List Symbol)) :
    firstValue mark key (entries.filter (· ≠ [])) = firstValue mark key entries := by
  have unkeyed : ∀ entry : List Symbol,
      (entry ≠ [] ∧ keyOf? mark entry = some key) ↔ keyOf? mark entry = some key := by
    intro entry
    cases entry <;> simp [keyOf?]
  simp only [firstValue, List.find?_filter, decide_eq_true_eq, unkeyed]

/-! ## The search by places -/

theorem entryEnd_cases (separator : Symbol) (record : List Symbol) (place : Nat) :
    separator ∉ record.drop place ∧ entryEnd separator record place = record.length ∨
      ∃ entry behind, record.drop place = entry ++ separator :: behind ∧ separator ∉ entry ∧
        entryEnd separator record place = place + entry.length := by
  by_cases member : separator ∈ record.drop place
  · rcases List.eq_append_cons_of_mem member with ⟨entry, behind, split, free⟩
    refine .inr ⟨entry, behind, split, free, ?_⟩
    rw [entryEnd, split, idxOf?_append_cons free, Option.elim_some]
  · refine .inl ⟨member, ?_⟩
    rw [entryEnd, List.idxOf?_eq_none_iff.mpr member, Option.elim_none]

theorem place_le_entryEnd (separator : Symbol) {place : Nat} (inside : place ≤ record.length) :
    place ≤ entryEnd separator record place := by
  rcases entryEnd_cases separator record place with ⟨-, stop⟩ | ⟨_, _, -, -, stop⟩ <;> omega

/-- The invariant of the search: what is to be found from a place on is the value of the entry
at that place, or what is to be found from behind that entry on. -/
theorem firstValue_drop (record key : List Symbol) (place : Nat) :
    firstValue mark key ((record.drop place).splitOn separator) =
      if keyOf? mark (record.extract place (entryEnd separator record place)) = some key then
        some (valueOf mark (record.extract place (entryEnd separator record place)))
      else
        firstValue mark key
          ((record.drop (entryEnd separator record place + 1)).splitOn separator) := by
  rcases entryEnd_cases separator record place with
    ⟨last, stop⟩ | ⟨entry, behind, split, free, stop⟩
  · have whole : record.extract place record.length = record.drop place :=
      List.take_of_length_le (Nat.le_of_eq List.length_drop)
    have nothing : record.drop (record.length + 1) = [] := List.drop_of_length_le (Nat.le_succ _)
    rw [stop, whole, nothing, List.splitOn_eq_singleton last, firstValue_cons]
    rfl
  · have cut : record.extract place (place + entry.length) = entry := by
      rw [List.extract_eq_take_drop, split, Nat.add_sub_cancel_left, List.take_left]
    have next : record.drop (place + entry.length + 1) = behind := by
      rw [Nat.add_assoc, ← List.drop_drop, split, List.drop_append]
      simp
    rw [stop, cut, next, split, List.splitOn_append_cons_self_of_not_mem free, firstValue_cons]

theorem turn_over (record key : List Symbol) (turns : Nat) (answer : Option (List Symbol)) :
    (turn separator mark record key)^[turns] (.over answer) = .over answer :=
  Function.iterate_fixed rfl turns

theorem turn_of_ended (key : List Symbol) {place : Nat} (ended : record.length ≤ place) :
    turn separator mark record key (.going place) =
      .over (firstValue mark key ((record.drop place).splitOn separator)) := by
  rw [List.drop_of_length_le ended, turn, if_neg (Nat.not_lt.mpr ended)]
  rfl

/-- Each turn leaves at least one symbol behind, so as many turns as there are symbols, and one
more, are enough. -/
theorem turn_iterate (key : List Symbol) {turns place : Nat}
    (enough : record.length ≤ place + turns) :
    (turn separator mark record key)^[turns + 1] (.going place) =
      .over (firstValue mark key ((record.drop place).splitOn separator)) := by
  induction turns generalizing place with
  | zero => exact turn_of_ended key enough
  | succ turns induction =>
      rw [Function.iterate_succ_apply]
      by_cases inside : place < record.length
      · have onward := place_le_entryEnd separator (Nat.le_of_lt inside)
        rw [firstValue_drop record key place, turn, if_pos inside]
        dsimp only
        split
        · exact turn_over record key _ _
        · exact induction (by omega)
      · rw [turn_of_ended key (Nat.le_of_not_lt inside)]
        exact turn_over record key _ _

/-- Both searches find the same. -/
theorem ends_amongEntries (record key : List Symbol) :
    Ends separator mark record key (amongEntries separator mark record key) := by
  refine ⟨record.length + 1, Nat.le_refl _, ?_⟩
  rw [turn_iterate key (Nat.le_add_left _ 0), List.drop_zero, amongEntries, firstValue_filter]

/-! ## The first entry with the key -/

theorem amongEntries_eq_some :
    amongEntries separator mark record key = some value ↔
      IsFirst separator mark record key (some value) := by
  rw [amongEntries, firstValue_filter, firstValue, Option.map_eq_some_iff]
  simp only [List.find?_eq_some_iff_append, decide_eq_true_eq, keyOf?_eq_some,
    Bool.not_eq_true', decide_eq_false_iff_not]
  constructor
  · rintro ⟨entry, ⟨⟨free, content, rfl⟩, earlier, later, split, none⟩, found⟩
    rw [valueOf_keyed free] at found
    subst found
    exact ⟨earlier, later, split, free, none⟩
  · rintro ⟨earlier, later, split, free, none⟩
    exact ⟨_, ⟨⟨free, value, rfl⟩, earlier, later, split, none⟩, valueOf_keyed free⟩

theorem amongEntries_eq_none :
    amongEntries separator mark record key = none ↔ IsFirst separator mark record key none := by
  rw [amongEntries, firstValue_filter, firstValue, Option.map_eq_none_iff, List.find?_eq_none]
  simp only [decide_eq_true_eq, keyOf?_eq_some]
  rfl

theorem amongEntries_eq_iff {answer : Option (List Symbol)} :
    amongEntries separator mark record key = answer ↔
      IsFirst separator mark record key answer := by
  cases answer with
  | none => exact amongEntries_eq_none
  | some value => exact amongEntries_eq_some

/-! ## Texts and their units -/

variable {character : Char}

theorem keyOf?_ofText (ascii : character.toNat < 0x80) (entry : Text) :
    keyOf? (Units.unitOf character) (Units.ofText entry) =
      (keyOf? character entry).map Units.ofText := by
  by_cases member : character ∈ entry
  · rcases List.eq_append_cons_of_mem member with ⟨front, back, rfl, free⟩
    have apart := Units.unitOf_not_mem_ofText ascii free
    rw [Units.ofText_append_cons ascii, keyOf?_eq_some.mpr ⟨apart, _, rfl⟩,
      keyOf?_eq_some.mpr ⟨free, back, rfl⟩, Option.map_some]
  · have apart := Units.unitOf_not_mem_ofText ascii member
    rw [keyOf?, keyOf?, List.idxOf?_eq_none_iff.mpr apart, List.idxOf?_eq_none_iff.mpr member]
    rfl

theorem firstValue_ofText (ascii : character.toNat < 0x80) (key : Text) (entries : List Text) :
    firstValue (Units.unitOf character) (Units.ofText key) (entries.map Units.ofText) =
      (firstValue character key entries).map Units.ofText := by
  induction entries with
  | nil => rfl
  | cons entry entries induction =>
      rw [List.map_cons, firstValue_cons, firstValue_cons, keyOf?_ofText ascii, induction]
      by_cases found : keyOf? character entry = some key
      · rcases keyOf?_eq_some.mp found with ⟨free, value, rfl⟩
        have apart := Units.unitOf_not_mem_ofText ascii free
        rw [found, Option.map_some, if_pos rfl, if_pos rfl, Units.ofText_append_cons ascii,
          valueOf_keyed apart, valueOf_keyed free, Option.map_some]
      · have differs : ¬ (keyOf? character entry).map Units.ofText = some (Units.ofText key) := by
          intro same
          rcases Option.map_eq_some_iff.mp same with ⟨other, otherEq, units⟩
          rw [otherEq, Units.ofText_injective units] at found
          exact found rfl
        rw [if_neg found, if_neg differs]

theorem amongEntries_ofText (record key : Text) :
    amongEntries (Units.unitOf ';') (Units.unitOf '=') (Units.ofText record) (Units.ofText key) =
      (amongEntries ';' '=' record key).map Units.ofText := by
  rw [amongEntries, firstValue_filter, Units.splitOn_ofText (by decide),
    firstValue_ofText (by decide), amongEntries, firstValue_filter]

end Lookup

/-! ## Records -/

theorem Entry.key?_eq_keyOf? (entry : Text) : key? entry = Lookup.keyOf? '=' entry := by
  ext1 key
  rw [Lookup.keyOf?_eq_some]
  constructor
  · intro found
    rcases eq_make_of_key? found with ⟨made, free⟩
    exact ⟨free, _, made⟩
  · rintro ⟨free, value, rfl⟩
    exact key?_make free value

theorem Draft.get?_eq_firstValue (draft : Draft) (key : Text) :
    draft.get? key = Lookup.firstValue '=' key draft.entries := by
  have test : hasKey key = fun entry => decide (Lookup.keyOf? '=' entry = some key) := by
    funext entry
    rw [hasKey, Entry.key?_eq_keyOf?]
  rw [get?, Lookup.firstValue, ← test]
  cases found : draft.entries.find? (hasKey key) with
  | none => rfl
  | some entry =>
      have keyed : hasKey key entry = true := List.find?_some found
      rw [test, decide_eq_true_iff, Lookup.keyOf?_eq_some] at keyed
      rcases keyed with ⟨free, value, rfl⟩
      exact congrArg some ((Entry.value_make free value).trans (Lookup.valueOf_keyed free).symm)

theorem Record.findValue_eq_amongEntries (record key : Text) :
    findValue record key = Lookup.amongEntries ';' '=' record key := by
  rw [findValue_eq_get?, Draft.get?_eq_firstValue]
  rfl

/-- In any string of units, the search by places and the search among entries both end with the
value of the first entry with the key. A text is looked up as its units are: what `findValue`
answers is what a draft of the text answers and what the search by places ends with. -/
theorem Record.lookups_agree :
    (∀ record key : Units,
      Lookup.Ends (Units.unitOf ';') (Units.unitOf '=') record key
        (Lookup.amongEntries (Units.unitOf ';') (Units.unitOf '=') record key) ∧
      ∀ answer, Lookup.amongEntries (Units.unitOf ';') (Units.unitOf '=') record key = answer ↔
        Lookup.IsFirst (Units.unitOf ';') (Units.unitOf '=') record key answer) ∧
    ∀ record key : Text,
      findValue record key = (Draft.ofRecord record).get? key ∧
      hasKey record key = (Draft.ofRecord record).contains key ∧
      (∀ answer, findValue record key = answer ↔ Lookup.IsFirst ';' '=' record key answer) ∧
      Lookup.Ends (Units.unitOf ';') (Units.unitOf '=') (Units.ofText record) (Units.ofText key)
        ((findValue record key).map Units.ofText) := by
  refine ⟨fun record key => ⟨Lookup.ends_amongEntries record key, fun answer =>
    Lookup.amongEntries_eq_iff⟩, fun record key => ⟨findValue_eq_get? record key,
    (contains_eq_hasKey record key).symm, fun answer => ?_, ?_⟩⟩
  · rw [findValue_eq_amongEntries]
    exact Lookup.amongEntries_eq_iff
  · rw [findValue_eq_amongEntries, ← Lookup.amongEntries_ofText]
    exact Lookup.ends_amongEntries _ _

end LedgerGovernance
