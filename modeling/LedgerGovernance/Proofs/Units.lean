import LedgerGovernance.Text.Units
import Mathlib.Logic.Function.Basic

/-! Texts and their units. A character has one unit or a surrogate pair, and no character
is half of one; so whatever follows, the units of a character are read as that character,
and a text is read back from its units. An ASCII character has a unit that is part of no other
character, so a text and its units are split at the same places. -/

namespace LedgerGovernance

namespace Units

variable {character : Char} {code : Nat}

/-! ## Units and halves -/

theorem toNat_ofNat (fits : code < 0x10000) : (UInt16.ofNat code).toNat = code := by
  rw [UInt16.toNat_ofNat', Nat.mod_eq_of_lt fits]

theorem isHigh_ofNat (fits : code < 0x10000) :
    isHigh (UInt16.ofNat code) = decide (0xd800 ≤ code ∧ code < 0xdc00) := by
  simp [isHigh, UInt16.le_iff_toNat_le, UInt16.lt_iff_toNat_lt, Nat.mod_eq_of_lt fits]

theorem isLow_ofNat (fits : code < 0x10000) :
    isLow (UInt16.ofNat code) = decide (0xdc00 ≤ code ∧ code < 0xe000) := by
  simp [isLow, UInt16.le_iff_toNat_le, UInt16.lt_iff_toNat_lt, Nat.mod_eq_of_lt fits]

/-- No character is half of a pair, and none is beyond the sixteen planes behind the first. -/
theorem toNat_ranges (character : Char) :
    character.toNat < 0xd800 ∨ 0xdfff < character.toNat ∧ character.toNat < 0x110000 :=
  character.valid

/-! ## Reading what was written -/

/-- A unit that is no half stands for its own character. -/
theorem text_cons_of_not_high {unit : UInt16} (whole : isHigh unit = false) (rest : Units) :
    text (unit :: rest) = alone unit :: text rest := by
  cases rest with
  | nil => rfl
  | cons low rest => rw [text, whole, Bool.false_and, if_neg Bool.false_ne_true]

theorem text_cons_basic (basic : character.toNat < 0x10000) (rest : Units) :
    text (UInt16.ofNat character.toNat :: rest) = character :: text rest := by
  have ranges := toNat_ranges character
  have notHigh : isHigh (UInt16.ofNat character.toNat) = false := by
    rw [isHigh_ofNat basic, decide_eq_false_iff_not]
    omega
  have notLow : isLow (UInt16.ofNat character.toNat) = false := by
    rw [isLow_ofNat basic, decide_eq_false_iff_not]
    omega
  rw [text_cons_of_not_high notHigh, alone, notHigh, notLow, toNat_ofNat basic,
    Bool.or_false, if_neg Bool.false_ne_true, Char.ofNat_toNat]

theorem text_cons_pair {offset : Nat} (beyond : character.toNat = 0x10000 + offset)
    (rest : Units) :
    text (UInt16.ofNat (0xd800 + offset / 0x400) :: UInt16.ofNat (0xdc00 + offset % 0x400)
      :: rest) = character :: text rest := by
  have ranges := toNat_ranges character
  have highFits : 0xd800 + offset / 0x400 < 0x10000 := by omega
  have lowFits : 0xdc00 + offset % 0x400 < 0x10000 := by omega
  have high : isHigh (UInt16.ofNat (0xd800 + offset / 0x400)) = true := by
    rw [isHigh_ofNat highFits, decide_eq_true_iff]
    omega
  have low : isLow (UInt16.ofNat (0xdc00 + offset % 0x400)) = true := by
    rw [isLow_ofNat lowFits, decide_eq_true_iff]
    omega
  have same : joined (UInt16.ofNat (0xd800 + offset / 0x400))
      (UInt16.ofNat (0xdc00 + offset % 0x400)) = character := by
    have sum : 0x10000 + 0x400 * (0xd800 + offset / 0x400 - 0xd800) +
        (0xdc00 + offset % 0x400 - 0xdc00) = character.toNat := by omega
    rw [joined, toNat_ofNat highFits, toNat_ofNat lowFits, sum, Char.ofNat_toNat]
  rw [text, high, low, Bool.and_self, if_pos rfl, same]

/-- The units of a character are read as that character, whatever follows. -/
theorem text_ofChar_append (character : Char) (rest : Units) :
    text (ofChar character ++ rest) = character :: text rest := by
  unfold ofChar
  by_cases basic : character.toNat < 0x10000
  · rw [if_pos basic]
    exact text_cons_basic basic rest
  · rw [if_neg basic]
    exact text_cons_pair (Nat.add_sub_of_le (Nat.le_of_not_lt basic)).symm rest

theorem text_ofText (written : Text) : text (ofText written) = written := by
  induction written with
  | nil => rfl
  | cons character rest induction =>
      rw [ofText, List.flatMap_cons, text_ofChar_append, ← ofText, induction]

theorem string_ofString (value : String) : string (ofString value) = value := by
  rw [string, ofString, text_ofText, String.ofList_toList]

theorem ofText_injective : Function.Injective ofText :=
  Function.LeftInverse.injective text_ofText

/-! ## ASCII characters -/

/-- The unit of a character of the basic plane. -/
def unitOf (character : Char) : UInt16 :=
  UInt16.ofNat character.toNat

variable {mark : Char}

theorem ofChar_of_ascii (ascii : mark.toNat < 0x80) : ofChar mark = [unitOf mark] := by
  have basic : mark.toNat < 0x10000 := by omega
  rw [ofChar]
  exact if_pos basic

private theorem unitOf_eq_ofNat (ascii : mark.toNat < 0x80) (fits : code < 0x10000)
    (same : unitOf mark = UInt16.ofNat code) : mark.toNat = code := by
  have units := congrArg UInt16.toNat same
  rwa [unitOf, toNat_ofNat (by omega), toNat_ofNat fits] at units

/-- No other character has the unit of an ASCII character, not in a pair either. -/
theorem unitOf_mem_ofChar (ascii : mark.toNat < 0x80) :
    unitOf mark ∈ ofChar character ↔ character = mark := by
  constructor
  · intro member
    have ranges := toNat_ranges character
    unfold ofChar at member
    by_cases basic : character.toNat < 0x10000
    · rw [if_pos basic, List.mem_singleton] at member
      exact (Char.toNat_inj.mp (unitOf_eq_ofNat ascii basic member)).symm
    · simp only [if_neg basic, List.mem_cons, List.not_mem_nil, or_false] at member
      rcases member with high | low
      · have same := unitOf_eq_ofNat ascii (by omega) high
        omega
      · have same := unitOf_eq_ofNat ascii (by omega) low
        omega
  · rintro rfl
    rw [ofChar_of_ascii ascii]
    exact List.mem_singleton_self _

theorem unitOf_mem_ofText (ascii : mark.toNat < 0x80) {text : Text} :
    unitOf mark ∈ ofText text ↔ mark ∈ text := by
  simp [ofText, unitOf_mem_ofChar ascii]

theorem unitOf_not_mem_ofText (ascii : mark.toNat < 0x80) {text : Text} (free : mark ∉ text) :
    unitOf mark ∉ ofText text :=
  mt (unitOf_mem_ofText ascii).mp free

theorem ofText_append_cons (ascii : mark.toNat < 0x80) (front back : Text) :
    ofText (front ++ mark :: back) = ofText front ++ unitOf mark :: ofText back := by
  rw [ofText, List.flatMap_append, List.flatMap_cons, ofChar_of_ascii ascii]
  rfl

theorem ofText_append (front back : Text) : ofText (front ++ back) = ofText front ++ ofText back :=
  List.flatMap_append

theorem splitOn_ofText (ascii : mark.toNat < 0x80) (text : Text) :
    (ofText text).splitOn (unitOf mark) = (text.splitOn mark).map ofText := by
  by_cases member : mark ∈ text
  · rcases List.eq_append_cons_of_mem member with ⟨front, back, split, free⟩
    have shorter : back.length < text.length := by
      rw [split, List.length_append, List.length_cons]
      omega
    have apart := unitOf_not_mem_ofText ascii free
    rw [split, ofText_append_cons ascii, List.splitOn_append_cons_self_of_not_mem apart,
      List.splitOn_append_cons_self_of_not_mem free, splitOn_ofText ascii back, List.map_cons]
  · have apart := unitOf_not_mem_ofText ascii member
    rw [List.splitOn_eq_singleton apart, List.splitOn_eq_singleton member]
    rfl
termination_by text.length

private theorem toNat_char (valid : code.isValidChar) : (Char.ofNat code).toNat = code := by
  rw [Char.ofNat, dif_pos valid]
  rfl

private theorem ofChar_alone {unit : UInt16} (ascii : (alone unit).toNat < 0x80) :
    ofChar (alone unit) = [unit] := by
  unfold alone at ascii ⊢
  split at ascii
  · exact absurd ascii (by decide)
  · rename_i whole
    have bound := unit.toNat_lt
    have valid : unit.toNat.isValidChar := by
      simp only [isHigh, isLow, UInt16.le_iff_toNat_le, UInt16.lt_iff_toNat_lt, Bool.or_eq_true,
        Bool.and_eq_true, decide_eq_true_eq, not_or, not_and, UInt16.reduceToNat] at whole
      simp only [Nat.isValidChar]
      omega
    rw [toNat_char valid] at ascii
    have basic : unit.toNat < 0x10000 := by omega
    rw [if_neg whole, ofChar, toNat_char valid]
    simp only [if_pos basic, UInt16.ofNat_toNat]

private theorem le_toNat_joined {high low : UInt16} (isPair : (isHigh high && isLow low) = true) :
    0x10000 ≤ (joined high low).toNat := by
  simp only [isHigh, isLow, UInt16.le_iff_toNat_le, UInt16.lt_iff_toNat_lt, Bool.and_eq_true,
    decide_eq_true_eq, UInt16.reduceToNat] at isPair
  have valid : (0x10000 + 0x400 * (high.toNat - 0xd800) + (low.toNat - 0xdc00)).isValidChar := by
    simp only [Nat.isValidChar]
    omega
  rw [joined, toNat_char valid]
  omega

/-- Units that stand for ASCII characters are the units of those characters. -/
theorem ofText_text {units : Units} (ascii : ∀ character ∈ text units, character.toNat < 0x80) :
    ofText (text units) = units := by
  induction units using text.induct with
  | case1 => rfl
  | case2 unit =>
      rw [text, ofText, List.flatMap_singleton]
      exact ofChar_alone (ascii _ List.mem_cons_self)
  | case3 high low rest isPair induction =>
      -- A pair stands for a character outside the basic plane.
      rw [text, if_pos isPair] at ascii
      have wide := le_toNat_joined isPair
      have small := ascii _ List.mem_cons_self
      omega
  | case4 high low rest isPair induction =>
      rw [text, if_neg isPair] at ascii ⊢
      rcases List.forall_mem_cons.mp ascii with ⟨first, others⟩
      rw [ofText, List.flatMap_cons, ofChar_alone first, ← ofText, induction others]
      rfl

end Units

end LedgerGovernance
