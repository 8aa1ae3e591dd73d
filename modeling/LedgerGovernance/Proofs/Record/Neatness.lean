import LedgerGovernance.Proofs.Record.Revisions
import Mathlib.Data.List.Nodup

/-! Neat records. Nothing keeps junk out of a text; but where nothing but the library has
written, the entries are plain values under keys of the ledger, no key comes twice, and
single separators stand between them. A revision keeps a record neat as long as it appends
nothing under a key that is there. -/

namespace LedgerGovernance

namespace Entry

theorem hasKey_ofPair (pair : Key × Text) (key : Key) :
    Draft.hasKey key.text (ofPair pair) = decide (pair.1 = key) := by
  have free : '=' ∉ pair.1.text := (separator_not_mem_of_plain pair.1.text_plain).2
  simp [Draft.hasKey, ofPair, key?_make free, Key.text_injective.eq_iff]

/-- What an entry under a key of the ledger looks like. -/
theorem ofPair_printable {pair : Key × Text} (plain : pair.2.all isPlain = true) :
    ofPair pair ≠ [] ∧ (∀ character ∈ ofPair pair, ' ' ≤ character ∧ character ≤ '~') ∧
      (ofPair pair).count '=' = 1 := by
  have keyFree := (separator_not_mem_of_plain pair.1.text_plain).2
  have valueFree := (separator_not_mem_of_plain plain).2
  refine ⟨by simp [ofPair, make], fun character member => ?_, ?_⟩
  · rcases List.mem_append.mp member with inKey | behind
    · exact printable_of_plain pair.1.text_plain character inKey
    · rcases List.mem_cons.mp behind with rfl | inValue
      · decide
      · exact printable_of_plain plain character inValue
  · rw [ofPair, make, List.count_append, List.count_cons_self, List.count_eq_zero.mpr keyFree,
      List.count_eq_zero.mpr valueFree]

end Entry

/-! ## Neat drafts -/

namespace Draft

/-- The entries of a draft are some values under keys of the ledger, no key twice. -/
structure Neat (draft : Draft) (pairs : List (Key × Text)) : Prop where
  entries_eq : draft.entries = pairs.map Entry.ofPair
  nodup : (pairs.map Prod.fst).Nodup
  plain : ∀ pair ∈ pairs, pair.2.all Entry.isPlain = true

/-- A pair once the value under a key is written over. -/
def overwritten (key : Key) (text : Text) (pair : Key × Text) : Key × Text :=
  if pair.1 = key then (key, text) else pair

theorem map_fst_overwritten (key : Key) (text : Text) (pairs : List (Key × Text)) :
    (pairs.map (overwritten key text)).map Prod.fst = pairs.map Prod.fst := by
  rw [List.map_map]
  apply List.map_congr_left
  intro pair _
  by_cases same : pair.1 = key <;> simp [overwritten, same]

namespace Neat

variable {draft edited : Draft} {pairs : List (Key × Text)} {key : Key} {value : Option Text}
  {added : List (Key × Text)}

theorem contains_of_mem (neat : draft.Neat pairs) {pair : Key × Text} (member : pair ∈ pairs) :
    draft.contains pair.1.text = true := by
  by_contra absent
  have missing := contains_eq_false.mp ((Bool.not_eq_true _).mp absent) (Entry.ofPair pair)
    (neat.entries_eq ▸ List.mem_map_of_mem member)
  simp [Entry.hasKey_ofPair] at missing

theorem overwrite (neat : draft.Neat pairs) (key : Key) {text : Text}
    (plain : text.all Entry.isPlain = true) :
    (draft.overwrite key.text text).Neat (pairs.map (overwritten key text)) := by
  refine ⟨?_, ?_, ?_⟩
  · rw [Draft.overwrite, neat.entries_eq, List.map_map, List.map_map]
    apply List.map_congr_left
    intro pair _
    simp only [Function.comp_apply, Entry.hasKey_ofPair, decide_eq_true_eq, overwritten]
    by_cases same : pair.1 = key
    · rw [if_pos same, if_pos same, Entry.ofPair]
    · rw [if_neg same, if_neg same]
  · rw [map_fst_overwritten]
    exact neat.nodup
  · intro pair member
    rcases List.mem_map.mp member with ⟨old, oldMember, rfl⟩
    by_cases same : old.1 = key
    · rw [overwritten, if_pos same]
      exact plain
    · rw [overwritten, if_neg same]
      exact neat.plain old oldMember

/-- Rewriting adds no key, and takes away the key that it drops. -/
theorem rewrite (neat : draft.Neat pairs) (key : Key)
    (plain : ∀ text ∈ value, text.all Entry.isPlain = true) :
    ∃ kept, (draft.rewrite key value).Neat kept ∧
      ∀ other ∈ kept.map Prod.fst, other ∈ pairs.map Prod.fst ∧ (value = none → other ≠ key) := by
  cases value with
  | none =>
      have remaining : ((fun entry => !hasKey key.text entry) ∘ Entry.ofPair) =
          fun pair => decide (pair.1 ≠ key) := by
        funext pair
        simp [Entry.hasKey_ofPair]
      refine ⟨pairs.filter fun pair => pair.1 ≠ key, ⟨?_, ?_, ?_⟩, ?_⟩
      · rw [Draft.rewrite, remove, neat.entries_eq, List.filter_map, remaining]
      · exact (List.filter_sublist.map Prod.fst).nodup neat.nodup
      · exact fun pair member => neat.plain pair (List.mem_filter.mp member).1
      · intro other member
        rcases List.mem_map.mp member with ⟨pair, pairMember, rfl⟩
        rcases List.mem_filter.mp pairMember with ⟨old, apart⟩
        exact ⟨List.mem_map_of_mem old, fun _ => of_decide_eq_true apart⟩
  | some text =>
      refine ⟨_, neat.overwrite key (plain text rfl), fun other member => ?_⟩
      rw [map_fst_overwritten] at member
      exact ⟨member, fun none => absurd none (Option.some_ne_none text)⟩

theorem revised (neat : draft.Neat pairs) (revised : draft.Revised key value added edited)
    (nodup : (added.map Prod.fst).Nodup)
    (fresh : ∀ pair ∈ added, pair.1 = key ∧ value = none ∨
      draft.contains pair.1.text = false) : ∃ pairs, edited.Neat pairs := by
  rcases neat.rewrite key revised.plain with ⟨kept, keptNeat, origin⟩
  refine ⟨kept ++ added, ⟨?_, ?_, ?_⟩⟩
  · rw [revised.entries_eq, keptNeat.entries_eq, List.map_append]
  · rw [List.map_append]
    refine List.nodup_append.mpr ⟨keptNeat.nodup, nodup, fun other old new newMember same => ?_⟩
    subst same
    rcases List.mem_map.mp newMember with ⟨pair, pairMember, rfl⟩
    rcases origin pair.1 old with ⟨there, dropped⟩
    rcases fresh pair pairMember with ⟨same, none⟩ | absent
    · exact dropped none same
    · rcases List.mem_map.mp there with ⟨before, beforeMember, same⟩
      have present := neat.contains_of_mem beforeMember
      rw [same, absent] at present
      cases present
  · intro pair member
    rcases List.mem_append.mp member with old | new
    · exact keptNeat.plain pair old
    · exact revised.added_plain pair new

end Neat

end Draft

/-! ## Neat records -/

namespace Record

variable {capacity : Nat} {record next : Text} {key : Key} {text : Text} {value : Option Text}
  {added : List (Key × Text)}

/-- A record with the entries of a neat draft, and nothing else between them but the
separators. -/
structure Neat (record : Text) : Prop where
  text_eq : (Draft.ofRecord record).toRecord = record
  listed : ∃ pairs, (Draft.ofRecord record).Neat pairs

theorem neat_nil : Neat [] :=
  ⟨rfl, [], rfl, List.nodup_nil, nofun⟩

theorem Revised.neat (revised : Revised capacity record key value added next)
    (before : Neat record) (nodup : (added.map Prod.fst).Nodup)
    (fresh : ∀ pair ∈ added, pair.1 = key ∧ value = none ∨ read? record pair.1 = none) :
    Neat next := by
  rcases before.listed with ⟨pairs, neat⟩
  refine ⟨revised.encoded.text_eq, neat.revised revised.edited nodup fun pair member => ?_⟩
  rcases fresh pair member with dropped | absent
  · exact .inl dropped
  · exact .inr (by rw [contains_ofRecord, absent, Option.isSome_none])

theorem Put.neat (put : Put capacity record key text next) (before : Neat record) :
    Neat next := by
  apply Revised.neat put before
  · unfold Draft.lacking
    split <;> simp
  · intro pair member
    unfold Draft.lacking at member
    split at member
    · cases member
    · rename_i absent
      rw [contains_ofRecord] at absent
      rw [List.mem_singleton.mp member]
      exact .inr (by simpa using absent)

namespace Neat

variable (neat : Neat record)

include neat

/-- The parts between the separators are the entries. -/
theorem splitOn_eq : record = [] ∨ record.splitOn ';' = (Draft.ofRecord record).entries := by
  by_cases empty : (Draft.ofRecord record).entries = []
  · refine .inl ?_
    rw [← neat.text_eq, Draft.toRecord, empty, List.intercalate_nil]
  · refine .inr ?_
    have split := List.splitOn_intercalate ';'
      (fun entry member => (Draft.whole_ofRecord record entry member).2) empty
    exact (congrArg (List.splitOn ';') neat.text_eq).symm.trans split

theorem printable : ∀ entry ∈ (Draft.ofRecord record).entries, entry ≠ [] ∧
    (∀ character ∈ entry, ' ' ≤ character ∧ character ≤ '~') ∧ entry.count '=' = 1 := by
  rcases neat.listed with ⟨pairs, listed⟩
  intro entry member
  rw [listed.entries_eq] at member
  rcases List.mem_map.mp member with ⟨pair, pairMember, rfl⟩
  exact Entry.ofPair_printable (listed.plain pair pairMember)

theorem exists_keys_eq : ∃ keys : List Key,
    (Draft.ofRecord record).keys = keys.map Key.text ∧ keys.Nodup := by
  rcases neat.listed with ⟨pairs, listed⟩
  refine ⟨pairs.map Prod.fst, ?_, listed.nodup⟩
  have own : Entry.key? ∘ Entry.ofPair = some ∘ Key.text ∘ Prod.fst := by
    funext pair
    exact Entry.key?_make (Entry.separator_not_mem_of_plain pair.1.text_plain).2 pair.2
  rw [Draft.keys, listed.entries_eq, List.filterMap_map, own, List.filterMap_eq_map,
    List.map_map]

end Neat

end Record

end LedgerGovernance
