import LedgerGovernance.Proofs.Number
import LedgerGovernance.Proofs.Record.Keys

/-! Revisions of a record. Whatever an operation of the ledger writes, it does one thing to
the entries that are there, under one key: they are dropped, or written over where they
stand. Then it appends entries behind all others. This is said once here, for any record,
and how the record then answers its keys follows from it. -/

namespace LedgerGovernance

namespace Entry

def ofPair (pair : Key × Text) : Text :=
  make pair.1.text pair.2

end Entry

/-- The answers once some entries stand behind all others. -/
def Record.appended {α : Type} [BEq α] (answers : α → Option Text) (pairs : List (α × Text)) :
    α → Option Text := fun key =>
  (answers key).or (pairs.lookup key)

namespace Draft

variable {draft edited : Draft} {key : Key} {text : Text} {value : Option Text}
  {added : List (Key × Text)}

/-! ## Revised drafts -/

/-- The draft with the entries under a key written over, or dropped without a value. -/
def rewrite (draft : Draft) (key : Key) : Option Text → Draft
  | none => draft.remove key.text
  | some text => draft.overwrite key.text text

/-- The entries of one key are rewritten, and then some are appended. A value that is
written over nothing has to be among these. -/
structure Revised (draft : Draft) (key : Key) (value : Option Text)
    (added : List (Key × Text)) (edited : Draft) : Prop where
  entries_eq : edited.entries = (draft.rewrite key value).entries ++ added.map Entry.ofPair
  plain : ∀ text ∈ value, text.all Entry.isPlain = true
  added_plain : ∀ pair ∈ added, pair.2.all Entry.isPlain = true
  answered : ∀ text ∈ value, draft.contains key.text = true ∨ added.lookup key = some text

/-- What has still to be appended once a value was written over all entries of its key. -/
def lacking (draft : Draft) (key : Key) (text : Text) : List (Key × Text) :=
  if draft.contains key.text then [] else [(key, text)]

/-! ## Setting a value -/

/-- Of two values that are set under one key, the second stays. -/
theorem set_set {new : Text} (done : draft.set key.text text = .ok edited)
    (writable : Writable key.text new) : edited.set key.text new = draft.set key.text new := by
  have written : Writable key.text text := by
    rcases Outcome.bind_eq_ok.mp done with ⟨found, replacing, -⟩
    exact (replace?_eq_ok.mp replacing).1
  have own : hasKey key.text (Entry.make key.text text) = true := by
    simp [written.hasKey_make]
  cases present : draft.contains key.text with
  | true =>
      cases (set_of_contains present written).symm.trans done
      have still : (draft.overwrite key.text text).contains key.text = true := by
        rw [contains, get?_overwrite written present, Function.update_self]
        rfl
      rw [set_of_contains still writable, set_of_contains present writable]
      simp only [overwrite, List.map_map, Except.ok.injEq, mk.injEq]
      refine List.map_congr_left fun entry _ => ?_
      by_cases found : hasKey key.text entry = true
      · simp [found, own]
      · simp [found]
  | false =>
      cases (set_of_absent present written).symm.trans done
      have still : (Draft.mk (draft.entries ++ [Entry.make key.text text])).contains key.text =
          true := by
        rw [contains, get?, Option.isSome_map, List.find?_isSome]
        exact ⟨_, by simp, own⟩
      rw [set_of_contains still writable, set_of_absent present writable]
      have before := congrArg Draft.entries (overwrite_eq_self present new)
      simp only [overwrite] at before
      simp only [overwrite, List.map_append, before, List.map_cons, List.map_nil, if_pos own]

/-! ## Appending entries -/

theorem appendAll_eq (draft : Draft) (pairs : List (Key × Text))
    (plain : ∀ pair ∈ pairs, pair.2.all Entry.isPlain = true) :
    draft.appendAll (Record.entries pairs) =
      .ok ⟨draft.entries ++ pairs.map Entry.ofPair⟩ := by
  induction pairs generalizing draft with
  | nil =>
      rw [List.map_nil, List.append_nil]
      rfl
  | cons pair pairs induction =>
      have first : draft.append pair.1.text pair.2 =
          .ok ⟨draft.entries ++ [Entry.ofPair pair]⟩ :=
        append_eq_ok.mpr ⟨pair.1.writable_text (plain pair List.mem_cons_self), rfl⟩
      rw [Record.entries, List.map_cons, appendAll, first, Outcome.ok_bind, ← Record.entries,
        induction _ fun other member => plain other (List.mem_cons_of_mem pair member),
        List.append_assoc, List.singleton_append, List.map_cons]

/-! ## Edits are revisions -/

namespace Revised

theorem removed (draft : Draft) (key : Key) :
    draft.Revised key none [] (draft.remove key.text) where
  entries_eq := (List.append_nil _).symm
  plain := nofun
  added_plain := nofun
  answered := nofun

theorem replaced (done : draft.replace? key.text text = .ok (some edited)) :
    draft.Revised key (some text) [] edited := by
  rcases replace?_eq_ok.mp done with ⟨writable, result⟩
  split at result
  · rename_i present
    cases result
    exact {
      entries_eq := (List.append_nil _).symm
      plain := by simpa using writable.value_plain
      added_plain := nofun
      answered := fun _ _ => .inl present }
  · cases result

theorem append {longer : Draft} {other : Key} (revised : draft.Revised key value added edited)
    (done : edited.append other.text text = .ok longer) :
    draft.Revised key value (added ++ [(other, text)]) longer := by
  rcases append_eq_ok.mp done with ⟨writable, rfl⟩
  constructor
  case entries_eq => simp [revised.entries_eq, Entry.ofPair]
  case plain => exact revised.plain
  case added_plain =>
    intro pair member
    rcases List.mem_append.mp member with old | last
    · exact revised.added_plain pair old
    · rw [List.mem_singleton.mp last]
      exact writable.value_plain
  case answered =>
    intro text given
    rcases revised.answered text given with present | appended
    · exact .inl present
    · exact .inr (by rw [List.lookup_append, appended, Option.some_or])

theorem appendAll {longer : Draft} (revised : draft.Revised key value added edited)
    (pairs : List (Key × Text)) (done : edited.appendAll (Record.entries pairs) = .ok longer) :
    draft.Revised key value (added ++ pairs) longer := by
  induction pairs generalizing added edited with
  | nil =>
      cases done
      rwa [List.append_nil]
  | cons pair pairs induction =>
      rcases Outcome.bind_eq_ok.mp done with ⟨next, appending, rest⟩
      have result := induction (revised.append appending) rest
      rwa [List.append_assoc, List.singleton_append] at result

/-- What is appended under a key that no entry has might as well be written over it. -/
theorem appended (absent : draft.contains key.text = false)
    (done : draft.append key.text text = .ok edited) :
    draft.Revised key (some text) [(key, text)] edited := by
  rcases append_eq_ok.mp done with ⟨writable, rfl⟩
  exact {
    entries_eq := by rw [rewrite, overwrite_eq_self absent]; rfl
    plain := by simpa using writable.value_plain
    added_plain := by simpa using writable.value_plain
    answered := fun _ given => .inr (by simpa using given) }

theorem set (done : draft.set key.text text = .ok edited) :
    draft.Revised key (some text) (draft.lacking key text) edited := by
  rcases Outcome.bind_eq_ok.mp done with ⟨found, replacing, rest⟩
  cases found with
  | some overwritten =>
      cases rest
      have present : draft.contains key.text = true := by
        by_contra absent
        have result := (replace?_eq_ok.mp replacing).2
        rw [if_neg absent] at result
        cases result
      rw [lacking, if_pos present]
      exact replaced replacing
  | none =>
      have absent : draft.contains key.text = false := by
        by_contra present
        have result := (replace?_eq_ok.mp replacing).2
        rw [if_pos (Bool.not_eq_false _ ▸ present)] at result
        cases result
      rw [lacking, if_neg (by simp [absent])]
      exact appended absent rest

/-! ## Reading a revised draft -/

theorem whole (revised : draft.Revised key value added edited) (before : draft.Whole) :
    edited.Whole := by
  intro entry member
  rw [revised.entries_eq] at member
  rcases List.mem_append.mp member with old | new
  · cases value with
    | none => exact before.remove _ entry old
    | some text => exact before.overwrite (key.writable_text (revised.plain text rfl)) entry old
  · rcases List.mem_map.mp new with ⟨pair, pairMember, rfl⟩
    exact (pair.1.writable_text (revised.added_plain pair pairMember)).make_whole

private theorem get?_pairs {pairs : List (Key × Text)}
    (plain : ∀ pair ∈ pairs, pair.2.all Entry.isPlain = true) (other : Text) :
    (Draft.mk (pairs.map Entry.ofPair)).get? other = (Record.entries pairs).lookup other := by
  induction pairs with
  | nil => rfl
  | cons pair pairs induction =>
      rcases pair with ⟨own, text⟩
      have writable := own.writable_text (plain (own, text) List.mem_cons_self)
      have rest := induction fun pair member => plain pair (List.mem_cons_of_mem _ member)
      simp only [get?] at rest ⊢
      rw [List.map_cons, List.find?_cons, Entry.ofPair, writable.hasKey_make, Record.entries,
        List.map_cons, List.lookup_cons]
      by_cases same : own.text = other
      · subst same
        simp [writable.value_make]
      · rw [decide_eq_false same, beq_eq_false_iff_ne.mpr fun equal => same equal.symm]
        exact rest

theorem get?_eq (revised : draft.Revised key value added edited) :
    edited.get? = Record.appended (Function.update draft.get? key.text value)
      (Record.entries added) := by
  funext other
  have behind : edited.get? other =
      ((draft.rewrite key value).get? other).or ((Record.entries added).lookup other) := by
    rw [← get?_pairs revised.added_plain, get?, revised.entries_eq, List.find?_append,
      Option.map_or]
    rfl
  rw [behind, Record.appended]
  cases value with
  | none => rw [rewrite, get?_remove]
  | some text =>
      have writable := key.writable_text (revised.plain text rfl)
      cases present : draft.contains key.text with
      | true => rw [rewrite, get?_overwrite writable present]
      | false =>
          have added : added.lookup key = some text :=
            (revised.answered text rfl).resolve_left (by simp [present])
          rw [rewrite, overwrite_eq_self present]
          by_cases same : other = key.text
          · have missing : draft.get? key.text = none := by simpa [contains] using present
            rw [same, Function.update_self, missing, Record.lookup_entries, added, Option.none_or,
              Option.some_or]
          · rw [Function.update_of_ne same]

/-- What a revision leaves alone answers as before. -/
theorem get?_of_ne (revised : draft.Revised key value added edited) {other : Key}
    (apart : other ≠ key) (unlisted : ∀ pair ∈ added, other ≠ pair.1) :
    edited.get? other.text = draft.get? other.text := by
  have nothing : added.lookup other = none :=
    List.lookup_eq_none_iff.mpr fun pair member => bne_iff_ne.mpr (unlisted pair member)
  rw [revised.get?_eq, Record.appended, Record.lookup_entries, nothing, Option.or_none,
    Function.update_of_ne fun same => apart (Key.text_injective same)]

end Revised

end Draft

/-! ## Revised records -/

namespace Record

variable {capacity : Nat} {record next : Text} {key : Key} {text : Text} {value : Option Text}
  {added : List (Key × Text)}

/-- A text that a draft was encoded to, within the capacity. -/
structure Encoded (capacity : Nat) (record : Text) : Prop where
  text_eq : (Draft.ofRecord record).toRecord = record
  fits : Text.utf8Size record ≤ capacity

/-- A record whose entries are those of another one, revised. -/
structure Revised (capacity : Nat) (record : Text) (key : Key) (value : Option Text)
    (added : List (Key × Text)) (next : Text) : Prop where
  encoded : Encoded capacity next
  edited : (Draft.ofRecord record).Revised key value added (Draft.ofRecord next)

/-- A record with a value under a key, put over the old one or behind all others. -/
def Put (capacity : Nat) (record : Text) (key : Key) (text : Text) (next : Text) : Prop :=
  Revised capacity record key (some text) ((Draft.ofRecord record).lacking key text) next

theorem Revised.of_encode {draft : Draft}
    (revised : (Draft.ofRecord record).Revised key value added draft)
    (done : draft.encode (capacity : Number) = .ok next) :
    Revised capacity record key value added next := by
  rcases Draft.encode_eq_ok.mp done with ⟨fits, rfl⟩
  have again := Draft.ofRecord_toRecord (revised.whole (Draft.whole_ofRecord record))
  refine ⟨⟨by rw [again], ?_⟩, again.symm ▸ revised⟩
  exact Nat.le_of_not_lt fun less => fits (Number.natCast_lt.mpr less)

theorem contains_ofRecord (record : Text) (key : Key) :
    (Draft.ofRecord record).contains key.text = (read? record key).isSome :=
  contains_eq_hasKey record key.text

/-- What is appended under a key that the record does not have is put there. -/
theorem Put.of_append {draft : Draft} (missing : read? record key = none)
    (appending : (Draft.ofRecord record).append key.text text = .ok draft)
    (encoding : draft.encode (capacity : Number) = .ok next) :
    Put capacity record key text next := by
  have absent : (Draft.ofRecord record).contains key.text = false := by
    rw [contains_ofRecord, missing, Option.isSome_none]
  rw [Put, Draft.lacking, if_neg (by simp [absent])]
  exact .of_encode (.appended absent appending) encoding

theorem read?_eq (record : Text) : read? record = (Draft.ofRecord record).get? ∘ Key.text :=
  funext fun key => findValue_eq_get? record key.text

/-- How a revised record answers its keys. -/
theorem Revised.read?_eq (revised : Revised capacity record key value added next) :
    read? next = appended (Function.update (read? record) key value) added := by
  funext other
  have rewritten := Function.update_comp_eq_of_injective (Draft.ofRecord record).get?
    Key.text_injective key value
  rw [Record.read?_eq, Record.read?_eq, ← rewritten, Function.comp_apply, revised.edited.get?_eq,
    appended, appended, lookup_entries, Function.comp_apply]

/-- Where nothing is appended, only the one key answers anew. -/
theorem Revised.read?_eq_update (revised : Revised capacity record key value [] next) :
    read? next = Function.update (read? record) key value := by
  rw [revised.read?_eq]
  funext other
  exact Option.or_none

/-- What a revision leaves alone answers as before. -/
theorem Revised.read?_of_ne (revised : Revised capacity record key value added next)
    {other : Key} (apart : other ≠ key) (unlisted : ∀ pair ∈ added, other ≠ pair.1) :
    read? next other = read? record other := by
  rw [Record.read?_eq, Record.read?_eq]
  exact revised.edited.get?_of_ne apart unlisted

theorem mem_lacking {draft : Draft} {pair : Key × Text}
    (member : pair ∈ draft.lacking key text) : pair = (key, text) := by
  unfold Draft.lacking at member
  split at member
  · cases member
  · exact List.mem_singleton.mp member

theorem Put.read?_of_ne (put : Put capacity record key text next) {other : Key}
    (apart : other ≠ key) : read? next other = read? record other :=
  Revised.read?_of_ne put apart fun _ member => mem_lacking member ▸ apart

theorem Put.read?_eq (put : Put capacity record key text next) :
    read? next = Function.update (read? record) key (some text) := by
  funext other
  by_cases same : other = key
  · rw [same, Revised.read?_eq put, appended, Function.update_self, Option.some_or]
  · rw [put.read?_of_ne same, Function.update_of_ne same]

theorem Put.read?_self (put : Put capacity record key text next) :
    read? next key = some text := by
  rw [put.read?_eq, Function.update_self]

end Record

end LedgerGovernance
