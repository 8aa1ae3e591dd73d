import Mathlib.Data.List.Basic
import LedgerGovernance.Proofs.Record.Revisions

/-! What a revision leaves alone. The entries under other keys keep their text and their
order, whatever else the record holds; so every other key is read as before, repeated and
shadowed entries included, and so do the entries that have no key at all. -/

namespace LedgerGovernance

theorem Entry.key?_eq_none {entry : Text} : key? entry = none ↔ '=' ∉ entry := by
  induction entry with
  | nil => simp [key?]
  | cons character rest induction =>
      by_cases separator : character = '='
      · simp [key?, separator]
      · have different : '=' ≠ character := fun same => separator same.symm
        simp [key?, separator, different, induction]

namespace Draft

variable {draft middle edited : Draft} {key : Key} {value : Option Text}
  {added : List (Key × Text)} {keys : List Key}

/-- The entries under none of some keys, in their order. -/
def beside (draft : Draft) (keys : List Key) : List Text :=
  draft.entries.filter fun entry => keys.all fun key => !hasKey key.text entry

/-- The entries without a separator, and so without a key, in their order. -/
def unkeyed (draft : Draft) : List Text :=
  draft.entries.filter fun entry => '=' ∉ entry

/-- An entry under a listed key is not beside the list. -/
private theorem all_eq_false {entry : Text} (listed : key ∈ keys)
    (found : hasKey key.text entry = true) :
    (keys.all fun key => !hasKey key.text entry) = false := by
  rw [List.all_eq_false]
  exact ⟨key, listed, by simp [found]⟩

private theorem beside_rewrite (listed : key ∈ keys)
    (plain : ∀ text ∈ value, text.all Entry.isPlain = true) :
    (draft.rewrite key value).beside keys = draft.beside keys := by
  have apart : ∀ entry, hasKey key.text entry = true →
      (keys.all fun key => !hasKey key.text entry) = false :=
    fun _ found => all_eq_false listed found
  cases value with
  | none => exact filter_remove apart
  | some text => exact filter_overwrite (key.writable_text (plain text rfl)) apart

theorem Revised.beside_eq (revised : draft.Revised key value added edited)
    (front : key ∈ keys) (behind : ∀ pair ∈ added, pair.1 ∈ keys) :
    edited.beside keys = draft.beside keys := by
  have nothing : (added.map Entry.ofPair).filter
      (fun entry => keys.all fun key => !hasKey key.text entry) = [] := by
    rw [List.filter_eq_nil_iff]
    intro entry member
    rcases List.mem_map.mp member with ⟨pair, pairMember, rfl⟩
    have writable := pair.1.writable_text (revised.added_plain pair pairMember)
    rw [Bool.not_eq_true]
    apply all_eq_false (behind pair pairMember)
    rw [Entry.ofPair, writable.hasKey_make, decide_eq_true rfl]
  have cut : edited.beside keys = (draft.rewrite key value).beside keys := by
    rw [beside, revised.entries_eq, List.filter_append, nothing, List.append_nil, beside]
  exact cut.trans (beside_rewrite front revised.plain)

/-! ## Reading what was left alone -/

/-- A longer list of keys leaves fewer entries beside it. -/
theorem beside_of_subset {others : List Key} (subset : keys ⊆ others) (draft : Draft) :
    draft.beside others =
      (draft.beside keys).filter fun entry => others.all fun key => !hasKey key.text entry := by
  rw [beside, beside, List.filter_filter]
  apply List.filter_congr
  intro entry _
  rw [Bool.eq_self_and]
  intro apart
  exact List.all_eq_true.mpr fun key member => List.all_eq_true.mp apart key (subset member)

/-- A key that is not listed is found among the entries beside the list. -/
theorem get?_eq_beside (draft : Draft) {key : Text} (unlisted : key ∉ keys.map Key.text) :
    draft.get? key = (Draft.mk (draft.beside keys)).get? key := by
  have test : ∀ entry, ((keys.all fun other => !hasKey other.text entry) && hasKey key entry) =
      hasKey key entry := by
    intro entry
    rw [Bool.and_eq_right_iff_imp]
    intro found
    rw [List.all_eq_true]
    intro other member
    rw [Bool.not_eq_true', ← Bool.not_eq_true]
    intro same
    simp only [hasKey, decide_eq_true_eq] at found same
    exact unlisted (List.mem_map.mpr ⟨other, member, Option.some.inj (same.symm.trans found)⟩)
  simp only [get?, beside, List.find?_filter, Bool.decide_and, Bool.decide_eq_true, test]

theorem unkeyed_eq_beside (draft : Draft) (keys : List Key) :
    draft.unkeyed = (Draft.mk (draft.beside keys)).unkeyed := by
  rw [unkeyed, unkeyed, beside, List.filter_filter]
  apply List.filter_congr
  intro entry _
  rw [Bool.eq_self_and]
  intro keyless
  rw [List.all_eq_true]
  intro key _
  rw [decide_eq_true_eq, ← Entry.key?_eq_none] at keyless
  simp [hasKey, keyless]

end Draft

/-! ## Records -/

namespace Record

variable {capacity : Nat} {record middle next : Text} {key : Key} {text : Text}
  {value : Option Text} {added : List (Key × Text)} {keys : List Key}

/-- A record with the same entries beside some keys as another one. -/
def Spares (keys : List Key) (record next : Text) : Prop :=
  (Draft.ofRecord next).beside keys = (Draft.ofRecord record).beside keys

namespace Spares

theorem refl (keys : List Key) (record : Text) : Spares keys record record := rfl

theorem trans (first : Spares keys record middle) (second : Spares keys middle next) :
    Spares keys record next :=
  Eq.trans second first

theorem mono {others : List Key} (spares : Spares keys record next) (subset : keys ⊆ others) :
    Spares others record next := by
  rw [Spares, Draft.beside_of_subset subset, spares, ← Draft.beside_of_subset subset]

/-- Whatever text is looked for, an unlisted key is read as before. -/
theorem findValue_eq (spares : Spares keys record next) {key : Text}
    (unlisted : key ∉ keys.map Key.text) : findValue next key = findValue record key := by
  rw [findValue_eq_get?, findValue_eq_get?, Draft.get?_eq_beside _ unlisted, spares,
    ← Draft.get?_eq_beside _ unlisted]

theorem read?_eq (spares : Spares keys record next) (unlisted : key ∉ keys) :
    read? next key = read? record key :=
  spares.findValue_eq fun listed =>
    unlisted ((List.mem_map_of_injective Key.text_injective).mp listed)

theorem unkeyed_eq (spares : Spares keys record next) :
    (Draft.ofRecord next).unkeyed = (Draft.ofRecord record).unkeyed := by
  rw [Draft.unkeyed_eq_beside _ keys, spares, ← Draft.unkeyed_eq_beside]

end Spares

theorem Revised.spares (revised : Revised capacity record key value added next)
    (front : key ∈ keys) (behind : ∀ pair ∈ added, pair.1 ∈ keys) : Spares keys record next :=
  revised.edited.beside_eq front behind

theorem Put.spares (put : Put capacity record key text next) (listed : key ∈ keys) :
    Spares keys record next :=
  Revised.spares put listed fun _ member => mem_lacking member ▸ listed

end Record

end LedgerGovernance
