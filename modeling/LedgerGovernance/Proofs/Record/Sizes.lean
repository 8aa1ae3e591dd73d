import LedgerGovernance.Proofs.Record.Neatness
import LedgerGovernance.Proofs.Record.Writing

/-! The size of a neat record. It is what the entries take, each with a separator, so that a
revision changes it by what it rewrites and by what it appends. The order in which values are
written does not come into it. -/

namespace LedgerGovernance

namespace Text

/-- A digit takes one byte. -/
theorem utf8Size_decimal (value : Nat) : utf8Size (decimal value) = (decimal value).length := by
  have digits : ∀ character ∈ decimal value, character.utf8Size = 1 := by
    intro character member
    have digit := isDigit_of_mem_decimal member
    simp only [Char.isDigit, Bool.and_eq_true, decide_eq_true_eq] at digit
    exact Char.utf8Size_eq_one_iff.mpr (UInt32.le_trans digit.2 (by decide))
  generalize decimal value = text at digits
  induction text with
  | nil => rfl
  | cons head tail induction =>
      rcases List.forall_mem_cons.mp digits with ⟨first, rest⟩
      rw [utf8Size_cons, first, induction rest, List.length_cons, Nat.add_comm]

/-- A greater number takes no fewer digits. -/
theorem utf8Size_decimal_mono {less more : Nat} (le : less ≤ more) :
    utf8Size (decimal less) ≤ utf8Size (decimal more) := by
  rw [utf8Size_decimal, utf8Size_decimal]
  have positive : 0 < (decimal more).length := List.length_pos_iff.mpr (decimal_ne_nil more)
  have fits : more < 10 ^ (decimal more).length :=
    (Nat.length_toDigits_le_iff (by decide) positive).mp (Nat.le_refl _)
  exact (Nat.length_toDigits_le_iff (by decide) positive).mpr (Nat.lt_of_le_of_lt le fits)

end Text

/-- The bytes that an entry takes, with its `=` and a separator. -/
def Entry.span (pair : Key × Text) : Nat :=
  Text.utf8Size pair.1.text + Text.utf8Size pair.2 + 2

theorem Entry.utf8Size_ofPair (pair : Key × Text) :
    Text.utf8Size (ofPair pair) + 1 = span pair := by
  have one : '='.utf8Size = 1 := rfl
  rw [ofPair, make, Text.utf8Size_append, Text.utf8Size_cons, one, span]
  omega

namespace Draft

variable {draft edited : Draft} {pairs added : List (Key × Text)} {key : Key} {old text : Text}

/-- The first entry goes without a separator. -/
theorem utf8Size_toRecord (entries_eq : draft.entries = pairs.map Entry.ofPair)
    (filled : pairs ≠ []) :
    Text.utf8Size draft.toRecord + 1 = (pairs.map Entry.span).sum := by
  have one : Text.utf8Size [';'] = 1 := rfl
  cases pairs with
  | nil => exact absurd rfl filled
  | cons first rest =>
      have behind : ((rest.map Entry.ofPair).map Text.utf8Size).map (Text.utf8Size [';'] + ·) =
          rest.map Entry.span := by
        rw [List.map_map, List.map_map]
        apply List.map_congr_left
        intro pair _
        rw [Function.comp_apply, Function.comp_apply, one, ← Entry.utf8Size_ofPair, Nat.add_comm]
      rw [toRecord, entries_eq, List.map_cons, utf8Size_intercalate_cons, behind, List.map_cons,
        List.sum_cons, ← Entry.utf8Size_ofPair]
      omega

/-- Only one of the listed values is written over. -/
theorem sum_overwritten (nodup : (pairs.map Prod.fst).Nodup) (listed : (key, old) ∈ pairs)
    (text : Text) :
    ((pairs.map (overwritten key text)).map Entry.span).sum + Text.utf8Size old =
      (pairs.map Entry.span).sum + Text.utf8Size text := by
  induction pairs with
  | nil => cases listed
  | cons pair pairs induction =>
      rw [List.map_cons, List.nodup_cons] at nodup
      rcases List.mem_cons.mp listed with rfl | member
      · have others : pairs.map (overwritten key text) = pairs := by
          refine (List.map_congr_left fun other member => ?_).trans (List.map_id pairs)
          rw [overwritten, if_neg, id]
          rintro rfl
          exact nodup.1 (List.mem_map.mpr ⟨other, member, rfl⟩)
        rw [List.map_cons, others, overwritten, if_pos rfl]
        simp only [List.map_cons, List.sum_cons, Entry.span]
        omega
      · have apart : pair.1 ≠ key := by
          rintro rfl
          exact nodup.1 (List.mem_map.mpr ⟨_, member, rfl⟩)
        have rest := induction nodup.2 member
        rw [List.map_cons, overwritten, if_neg apart]
        simp only [List.map_cons, List.sum_cons]
        omega

namespace Neat

/-- What is found under a key is what is listed there. -/
theorem mem_of_get? (neat : draft.Neat pairs) (found : draft.get? key.text = some old) :
    (key, old) ∈ pairs := by
  rcases Option.map_eq_some_iff.mp found with ⟨entry, entryFound, rfl⟩
  have listed := List.mem_of_find?_eq_some entryFound
  have own := List.find?_some entryFound
  rw [neat.entries_eq] at listed
  rcases List.mem_map.mp listed with ⟨pair, member, rfl⟩
  rw [Entry.hasKey_ofPair, decide_eq_true_eq] at own
  have free := (Entry.separator_not_mem_of_plain pair.1.text_plain).2
  rw [Entry.ofPair, Entry.value_make free, ← own]
  exact member

end Neat

end Draft

/-- A value is written over and others are appended: the size of a neat record tells the new
ones from the old one. -/
theorem Record.Neat.utf8Size_revised {record old text : Text} {key : Key}
    {added : List (Key × Text)} {edited : Draft} (neat : Neat record)
    (stored : read? record key = some old)
    (revised : (Draft.ofRecord record).Revised key (some text) added edited) :
    Text.utf8Size edited.toRecord + Text.utf8Size old =
      Text.utf8Size record + Text.utf8Size text + (added.map Entry.span).sum := by
  rcases neat.listed with ⟨pairs, listed⟩
  have found : (Draft.ofRecord record).get? key.text = some old :=
    (congrFun (read?_eq record) key).symm.trans stored
  have member := listed.mem_of_get? found
  have filled : pairs ≠ [] := List.ne_nil_of_mem member
  have overwriting := listed.overwrite key (revised.plain text rfl)
  have before := Draft.utf8Size_toRecord listed.entries_eq filled
  have after : Text.utf8Size edited.toRecord + 1 =
      ((pairs.map (Draft.overwritten key text) ++ added).map Entry.span).sum := by
    apply Draft.utf8Size_toRecord
    · rw [revised.entries_eq, Draft.rewrite, overwriting.entries_eq, List.map_append]
    · simp [filled]
  have once := Draft.sum_overwritten listed.nodup member text
  rw [neat.text_eq] at before
  rw [List.map_append, List.sum_append] at after
  omega

end LedgerGovernance
