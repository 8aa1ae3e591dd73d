import LedgerGovernance.Proofs.Checked.Building
import LedgerGovernance.Proofs.Units

/-! The texts of keys. A composite key gives its index back: an index is read from a key exactly
if the key is what is written for that index, whatever digits its stem and its ending hold. And
the keys of a record are apart: two keys that are built have the same text only if they are
built in the same way from the same parts. -/

namespace LedgerGovernance

/-! ## Indices in keys -/

namespace IndexedKey

/-- What stands between a stem and an ending, cut out by their lengths; there is nothing between
them if they meet or overlap. -/
def between? {Symbol : Type} [DecidableEq Symbol] (key stem ending : List Symbol) :
    Option (List Symbol) :=
  if stem <+: key ∧ ending <:+ key ∧ stem.length + ending.length + 1 ≤ key.length then
    some (key.extract stem.length (key.length - ending.length))
  else none

/-- The index of a key of units. -/
def readUnits? (key stem ending : Units) : Option Nat := do
  let digits ← between? key stem ending
  readIndex? (Units.text digits)

/-- The ending begins with the digit that the stem ends with, and nothing is between them. -/
example :
    readUnits? (Units.ofString "a1b") (Units.ofString "a1") (Units.ofString "1b") = none := by
  decide

private theorem extract_between {Symbol : Type} (stem middle ending : List Symbol) :
    (stem ++ middle ++ ending).extract stem.length
      ((stem ++ middle ++ ending).length - ending.length) = middle := by
  have count : (stem ++ middle ++ ending).length - ending.length - stem.length =
      middle.length := by
    simp only [List.length_append]
    omega
  rw [List.extract_eq_take_drop, count, List.append_assoc, List.drop_left, List.take_left]

theorem between?_eq_some {Symbol : Type} [DecidableEq Symbol]
    {key stem ending middle : List Symbol} :
    between? key stem ending = some middle ↔ middle ≠ [] ∧ key = stem ++ middle ++ ending := by
  constructor
  · intro found
    unfold between? at found
    split at found
    · rename_i parts
      rcases parts with ⟨⟨rest, rfl⟩, behind, room⟩
      rw [List.length_append] at room
      -- There is room for the ending behind the stem, so it is an ending of the rest.
      have inRest : ending <:+ rest :=
        List.suffix_of_suffix_length_le behind (List.suffix_append stem rest) (by omega)
      rcases inRest with ⟨inside, rfl⟩
      rw [← List.append_assoc, extract_between] at found
      cases found
      rw [List.length_append] at room
      exact ⟨List.ne_nil_of_length_pos (by omega), (List.append_assoc ..).symm⟩
    · cases found
  · rintro ⟨nonempty, rfl⟩
    have positive := List.length_pos_iff.mpr nonempty
    have starts : stem <+: stem ++ middle ++ ending :=
      (List.prefix_append stem middle).trans (List.prefix_append _ ending)
    have room : stem.length + ending.length + 1 ≤ (stem ++ middle ++ ending).length := by
      simp only [List.length_append]
      omega
    rw [between?, if_pos ⟨starts, List.suffix_append _ _, room⟩, extract_between]

theorem readIndex?_eq_some {digits : Text} {value : Nat} :
    readIndex? digits = some value ↔ value ≤ maxU8 ∧ digits = Text.decimal value := by
  constructor
  · intro found
    unfold readIndex? at found
    split at found
    · cases found
    · rename_i padded
      unfold Text.readDecimal? at found
      split at found
      · rename_i fits
        cases found
        simp only [Text.isDecimal, Bool.and_eq_true, Bool.not_eq_true', List.isEmpty_eq_false_iff,
          List.all_eq_true] at fits
        rcases fits with ⟨⟨⟨nonempty, -⟩, all⟩, small⟩
        have minimal : digits.head? = some '0' → digits = ['0'] := fun zero =>
          Decidable.byContradiction fun longer => padded ⟨zero, longer⟩
        exact ⟨small, (Text.decimal_digitsValue nonempty all minimal).symm⟩
      · cases found
  · rintro ⟨small, rfl⟩
    have unpadded : ¬ ((Text.decimal value).head? = some '0' ∧ Text.decimal value ≠ ['0']) :=
      fun padded => padded.2 (Text.decimal_eq_of_head?_zero padded.1)
    rw [readIndex?, if_neg unpadded]
    exact Text.readDecimal?_decimal (by decide) (by decide) small

theorem read?_eq_some {key stem ending : Text} {value : Nat} :
    read? key stem ending = some value ↔ value ≤ maxU8 ∧ key = write stem value ending := by
  simp only [read?, Option.bind_eq_bind, Option.bind_eq_some_iff, Text.withoutStem?_eq_some,
    Text.withoutEnding?_eq_some, readIndex?_eq_some]
  constructor
  · rintro ⟨rest, rfl, digits, rfl, small, rfl⟩
    exact ⟨small, (List.append_assoc ..).symm⟩
  · rintro ⟨small, rfl⟩
    exact ⟨_, List.append_assoc .., _, rfl, small, rfl⟩

theorem text_eq_decimal_iff {units : Units} {value : Nat} :
    Units.text units = Text.decimal value ↔ units = Units.ofText (Text.decimal value) := by
  constructor
  · intro same
    have ascii : ∀ character ∈ Units.text units, character.toNat < 0x80 := by
      intro character member
      rw [same] at member
      have bounds := Char.isDigit_iff_toNat.mp (Text.isDigit_of_mem_decimal member)
      exact Nat.lt_of_le_of_lt bounds.2 (by decide)
    rw [← same, Units.ofText_text ascii]
  · rintro rfl
    exact Units.text_ofText _

theorem readUnits?_eq_some {key stem ending : Units} {value : Nat} :
    readUnits? key stem ending = some value ↔
      value ≤ maxU8 ∧ key = stem ++ Units.ofText (Text.decimal value) ++ ending := by
  simp only [readUnits?, Option.bind_eq_bind, Option.bind_eq_some_iff, between?_eq_some,
    readIndex?_eq_some, text_eq_decimal_iff]
  constructor
  · rintro ⟨digits, ⟨-, rfl⟩, small, rfl⟩
    exact ⟨small, rfl⟩
  · rintro ⟨small, rfl⟩
    have nonempty : Units.ofText (Text.decimal value) ≠ [] := by
      intro empty
      exact Text.decimal_ne_nil value (Units.ofText_injective empty)
    exact ⟨_, ⟨nonempty, rfl⟩, small, rfl⟩

/-- A key of characters has the index of its units. -/
theorem readUnits?_ofText (key stem ending : Text) :
    readUnits? (Units.ofText key) (Units.ofText stem) (Units.ofText ending) =
      read? key stem ending := by
  ext1 value
  rw [readUnits?_eq_some, read?_eq_some, ← Units.ofText_append, ← Units.ofText_append,
    Units.ofText_injective.eq_iff, write]

theorem make_eq_ok {key stem ending : Text} {index : Number} :
    make stem index ending = .ok key ↔
      ∃ value : Nat, index = (value : Number) ∧ read? key stem ending = some value := by
  simp only [make, Outcome.bind_eq_ok, Outcome.pure_eq_ok, Number.keyIndex_eq_ok, read?_eq_some,
    and_assoc, eq_comm (a := key)]

/-- Reading an index undoes writing it, and nothing else is read. A key is what is made for a
number exactly if the number is the index that is read from it; so where none is read, the key
is made for no number at all. -/
theorem read_inverts_make :
    (∀ (key stem ending : Units) (value : Nat), readUnits? key stem ending = some value ↔
      value ≤ maxU8 ∧ key = stem ++ Units.ofText (Text.decimal value) ++ ending) ∧
    ∀ key stem ending : Text,
      readUnits? (Units.ofText key) (Units.ofText stem) (Units.ofText ending) =
        read? key stem ending ∧
      (∀ value : Nat, read? key stem ending = some value ↔
        value ≤ maxU8 ∧ key = stem ++ Text.decimal value ++ ending) ∧
      (∀ index : Number, make stem index ending = .ok key ↔
        ∃ value : Nat, index = (value : Number) ∧ read? key stem ending = some value) ∧
      (read? key stem ending = none ↔ ¬ ∃ index, make stem index ending = .ok key) := by
  refine ⟨fun _ _ _ _ => readUnits?_eq_some, fun key stem ending =>
    ⟨readUnits?_ofText key stem ending, fun _ => read?_eq_some, fun _ => make_eq_ok, ?_⟩⟩
  rw [Option.eq_none_iff_forall_ne_some]
  constructor
  · rintro unread ⟨index, made⟩
    rcases make_eq_ok.mp made with ⟨value, -, read⟩
    exact unread value read
  · intro unmade value read
    exact unmade ⟨_, make_eq_ok.mpr ⟨value, rfl, read⟩⟩

end IndexedKey

/-! ## Keys of a record -/

/-- A text that the entries of a record can have as their key. -/
structure Key.Valid (text : Text) : Prop where
  nonempty : text ≠ []
  printable : ∀ character ∈ text, ' ' ≤ character ∧ character ≤ '~'
  unseparated : ';' ∉ text ∧ '=' ∉ text
  accepted : ∀ value, value.all Entry.isPlain = true → Draft.checkEntry text value = .ok ()

theorem Key.valid_text (key : Key) : Key.Valid key.text where
  nonempty := key.text_ne_nil
  printable := Entry.printable_of_plain key.text_plain
  unseparated := Entry.separator_not_mem_of_plain key.text_plain
  accepted _ plain := Draft.checkEntry_eq_ok.mpr (key.writable_text plain)

/-- From parts that are within their bounds, the keys of all kinds are built and are valid, and
two of them have the same text only if they are of one kind and have the same parts. -/
theorem Key.built_apart (key other : Key) (addressable : key.Addressable)
    (otherAddressable : other.Addressable) :
    ∃ text otherText, Checked.key key = .ok text ∧ Checked.key other = .ok otherText ∧
      (text = otherText ↔ key = other) ∧ Key.Valid text ∧ Key.Valid otherText :=
  ⟨key.text, other.text, Checked.key_eq key addressable, Checked.key_eq other otherAddressable,
    Key.text_injective.eq_iff, key.valid_text, other.valid_text⟩

/-- The digits of two indices are kept apart. -/
theorem Key.votes_built_apart :
    (Key.vote 1 11).Addressable ∧ (Key.vote 11 1).Addressable ∧
      ∃ text otherText, Checked.key (.vote 1 11) = .ok text ∧
        Checked.key (.vote 11 1) = .ok otherText ∧
        (text = otherText ↔ Key.vote 1 11 = Key.vote 11 1) ∧
        Key.Valid text ∧ Key.Valid otherText :=
  ⟨⟨by decide, by decide⟩, ⟨by decide, by decide⟩,
    Key.built_apart _ _ ⟨by decide, by decide⟩ ⟨by decide, by decide⟩⟩

end LedgerGovernance
