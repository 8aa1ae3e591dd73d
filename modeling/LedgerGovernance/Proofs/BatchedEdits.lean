import LedgerGovernance.Proofs.Record.InPlace

/-! Several edits of one record. A component edits a draft as often as it needs and writes it
back once; the same edits may be made one by one, each on a fresh draft of the text that the
one before it left. Both ways lead to one text, whatever the record holds: a draft is read
back from its own text entry by entry, for nothing that an edit writes holds a separator, and
entries that were left out once as empty do not come back. -/

namespace LedgerGovernance

/-- One edit of a draft, under one key. -/
inductive Edit where
  | set (key value : Text)
  | replace (key value : Text)
  | append (key value : Text)
  | remove (key : Text)
deriving DecidableEq, Repr

namespace Edit

/-- What is written is plain text under a plain key; anything may be removed. -/
def Valid : Edit → Prop
  | set key value | replace key value | append key value => Draft.Writable key value
  | remove _ => True

/-- The edit of a draft that is kept and changed. -/
def inPlace : Edit → Call Draft Unit
  | set key value => Draft.InPlace.set key value
  | replace key value => do
      let _ ← Draft.InPlace.replace key value
  | append key value => Draft.InPlace.append key value
  | remove key => Draft.InPlace.remove key

/-- The draft that the edit makes of another one. -/
def apply (draft : Draft) : Edit → Outcome Draft
  | set key value => draft.set key value
  | replace key value => do return (← draft.replace? key value).getD draft
  | append key value => draft.append key value
  | remove key => .ok (draft.remove key)

/-- The edit of a stored record: a fresh draft of it is edited and written back. -/
def onRecord (capacity : Number) (record : Text) : Edit → Outcome Text
  | set key value => Record.setEntry record key value capacity
  | replace key value => do
      let draft := Draft.ofRecord record
      ((← draft.replace? key value).getD draft).encode capacity
  | append key value => Record.appendEntry record key value capacity
  | remove key => .ok (Record.removeEntry record key)

/-- What is left of a draft behind a series of edits. Those that are refused are passed over. -/
def session (draft : Draft) (edits : List Edit) : Draft :=
  edits.foldl (fun draft edit => (edit.inPlace.on draft).2) draft

/-- Room for every text on the way. -/
def Enough (capacity : Number) (record : Text) (edits : List Edit) : Prop :=
  ∀ count < edits.length, (Text.utf8Size
    (session (Draft.ofRecord record) (edits.take (count + 1))).toRecord : Number) ≤ capacity

instance (capacity : Number) (record : Text) (edits : List Edit) :
    Decidable (Enough capacity record edits) :=
  inferInstanceAs (Decidable (∀ count < edits.length, _))

variable {draft edited : Draft} {edit : Edit} {edits : List Edit} {record : Text}
  {capacity : Number}

/-! ## One edit -/

theorem inPlace_on (edit : Edit) (draft : Draft) :
    edit.inPlace.on draft = draft.settled (edit.apply draft) := by
  cases edit with
  | set key value => exact Draft.InPlace.set_on draft
  | append key value => exact Draft.InPlace.append_on draft
  | remove key => exact Draft.InPlace.remove_on draft
  | replace key value =>
      rw [inPlace, Call.on_bind, Draft.InPlace.replace_on, apply]
      cases draft.replace? key value <;> rfl

/-- A valid edit has a result, which is whole if the draft was. -/
theorem exists_apply (valid : edit.Valid) (draft : Draft) :
    ∃ edited, edit.apply draft = .ok edited ∧ (draft.Whole → edited.Whole) := by
  cases edit with
  | set key value =>
      cases present : draft.contains key with
      | true =>
          exact ⟨_, Draft.set_of_contains present valid, fun whole => whole.overwrite valid⟩
      | false =>
          exact ⟨_, Draft.set_of_absent present valid, fun whole => whole.append valid⟩
  | replace key value =>
      refine ⟨_, Outcome.bind_eq_ok.mpr ⟨_, Draft.replace?_eq_ok.mpr ⟨valid, rfl⟩, rfl⟩, ?_⟩
      intro whole
      split
      · exact whole.overwrite valid
      · exact whole
  | append key value =>
      exact ⟨_, Draft.append_eq_ok.mpr ⟨valid, rfl⟩, fun whole => whole.append valid⟩
  | remove key => exact ⟨_, rfl, fun whole => whole.remove key⟩

/-- What may not be written is ill-typed. -/
theorem exists_illTyped (invalid : ¬ edit.Valid) (draft : Draft) :
    ∃ argument, edit.apply draft = .error (.illTyped argument) := by
  cases edit with
  | remove key => exact absurd trivial invalid
  | set key value | replace key value | append key value =>
      rcases Draft.checkEntry_of_not_writable invalid with ⟨argument, refused⟩
      refine ⟨argument, ?_⟩
      simp only [apply, Draft.set, Draft.append, Draft.replace?, refused]
      rfl

/-- A fresh draft is written back if there is room. -/
theorem onRecord_eq_ok (applied : edit.apply (Draft.ofRecord record) = .ok edited)
    (fits : (Text.utf8Size edited.toRecord : Number) ≤ capacity) :
    edit.onRecord capacity record = .ok edited.toRecord := by
  have encoded := Draft.encode_of_le fits
  cases edit with
  | set key value | append key value => exact Outcome.bind_eq_ok.mpr ⟨edited, applied, encoded⟩
  | remove key =>
      cases applied
      rfl
  | replace key value =>
      rcases Outcome.bind_eq_ok.mp applied with ⟨replaced, replacing, same⟩
      cases same
      exact Outcome.bind_eq_ok.mpr ⟨replaced, replacing, encoded⟩

/-! ## Series of edits -/

theorem session_cons (draft : Draft) (edit : Edit) (edits : List Edit) :
    session draft (edit :: edits) = session (edit.inPlace.on draft).2 edits := rfl

theorem session_cons_of_apply (applied : edit.apply draft = .ok edited) (edits : List Edit) :
    session draft (edit :: edits) = session edited edits := by
  rw [session_cons, inPlace_on, applied]
  rfl

theorem whole_inPlace (whole : draft.Whole) (edit : Edit) : (edit.inPlace.on draft).2.Whole := by
  rw [inPlace_on]
  by_cases valid : edit.Valid
  · rcases exists_apply valid draft with ⟨edited, applied, kept⟩
    rw [applied]
    exact kept whole
  · rcases exists_illTyped valid draft with ⟨argument, refused⟩
    rw [refused]
    exact whole

theorem whole_session (whole : draft.Whole) (edits : List Edit) : (session draft edits).Whole := by
  induction edits generalizing draft with
  | nil => exact whole
  | cons edit edits induction => exact induction (whole_inPlace whole edit)

/-- One edit after the other, each on the text of the one before it. The text at hand is the
one of the draft at hand, but for the first, which may hold empty entries. -/
theorem foldlM_onRecord (first : Edit) (edits : List Edit)
    (valid : ∀ edit ∈ first :: edits, edit.Valid)
    (enough : Enough capacity record (first :: edits)) :
    (first :: edits).foldlM (onRecord capacity) record =
      .ok (session (Draft.ofRecord record) (first :: edits)).toRecord := by
  induction edits generalizing first record with
  | nil =>
      rcases exists_apply (valid first List.mem_cons_self) (Draft.ofRecord record) with
        ⟨edited, applied, -⟩
      have fits := enough 0 (Nat.succ_pos _)
      rw [List.take_succ_cons, List.take_zero, session_cons_of_apply applied] at fits
      rw [List.foldlM_cons, onRecord_eq_ok applied fits, session_cons_of_apply applied]
      rfl
  | cons second edits induction =>
      rcases exists_apply (valid first List.mem_cons_self) (Draft.ofRecord record) with
        ⟨edited, applied, kept⟩
      have again := Draft.ofRecord_toRecord (kept (Draft.whole_ofRecord record))
      have fits := enough 0 (Nat.succ_pos _)
      rw [List.take_succ_cons, List.take_zero, session_cons_of_apply applied] at fits
      have later : Enough capacity edited.toRecord (second :: edits) := by
        intro count inside
        have fits := enough (count + 1) (Nat.succ_lt_succ inside)
        rw [List.take_succ_cons, session_cons_of_apply applied] at fits
        rwa [again]
      have rest := induction second
        (fun edit member => valid edit (List.mem_cons_of_mem first member)) later
      rw [again] at rest
      rw [List.foldlM_cons, onRecord_eq_ok applied fits, Outcome.ok_bind, rest,
        session_cons_of_apply applied]

/-- Edits of one draft, written back once, give the text that the same edits give one by one.
Whatever edits a draft has seen, it is read back from its own text; it is written whole or
not at all, under any capacity that a size compares with; and an edit that it refuses leaves
it as it was. -/
theorem batch_agrees (record : Text) (edits : List Edit) :
    let draft := session (Draft.ofRecord record) edits
    (edits ≠ [] → (∀ edit ∈ edits, edit.Valid) → ∀ capacity, Enough capacity record edits →
      draft.encode capacity = .ok draft.toRecord ∧
      edits.foldlM (onRecord capacity) record = .ok draft.toRecord) ∧
    Draft.ofRecord draft.toRecord = draft ∧
    (∀ capacity : Number, capacity ≠ .nan → ∀ text, draft.encode capacity = .ok text ↔
      (Text.utf8Size draft.toRecord : Number) ≤ capacity ∧ text = draft.toRecord) ∧
    ∀ edit : Edit, (edit.Valid → (edit.inPlace.on draft).1 = .ok ()) ∧
      (¬ edit.Valid → ∃ argument,
        edit.inPlace.on draft = (.error (.fault (.illTyped argument)), draft)) := by
  intro draft
  have encoding (capacity : Number) (number : capacity ≠ .nan) (text : Text) :
      draft.encode capacity = .ok text ↔
        (Text.utf8Size draft.toRecord : Number) ≤ capacity ∧ text = draft.toRecord := by
    rw [Draft.encode_eq_ok, Number.natCast_le_iff, and_iff_right number, eq_comm]
  refine ⟨fun nonempty valid capacity enough => ?_, ?_, encoding, fun edit => ⟨?_, ?_⟩⟩
  · cases edits with
    | nil => exact absurd rfl nonempty
    | cons first edits =>
        have fits := enough edits.length (Nat.lt_succ_self _)
        rw [← List.length_cons, List.take_length] at fits
        exact ⟨Draft.encode_of_le fits, foldlM_onRecord first edits valid enough⟩
  · exact Draft.ofRecord_toRecord (whole_session (Draft.whole_ofRecord record) edits)
  · intro valid
    rcases exists_apply valid draft with ⟨edited, applied, -⟩
    rw [inPlace_on, applied]
    rfl
  · intro invalid
    rcases exists_illTyped invalid draft with ⟨argument, refused⟩
    exact ⟨argument, by rw [inPlace_on, refused]; rfl⟩

/-- A record with a repeated key, a byte beyond ASCII and empty entries, edited with no byte to
spare. -/
theorem littered_batch_agrees :
    let record := ";a=1;;junk;a=2;b=é;".toList
    let edits : List Edit := [.set ['a'] ['9'], .append ['c'] "1:2".toList, .remove ['b'],
      .replace ['d'] ['0']]
    (∀ edit ∈ edits, edit.Valid) ∧ Enough 23 record edits ∧
      (session (Draft.ofRecord record) edits).toRecord = "a=9;junk;a=9;c=1:2".toList ∧
      edits.foldlM (onRecord 23) record = .ok "a=9;junk;a=9;c=1:2".toList := by
  intro record edits
  have valid : ∀ edit ∈ edits, edit.Valid := by
    have writable {key value : Text} (passes : Draft.checkEntry key value = .ok ()) :
        Draft.Writable key value := Draft.checkEntry_eq_ok.mp passes
    simp only [edits, List.forall_mem_cons]
    exact ⟨writable rfl, writable rfl, trivial, writable rfl, nofun⟩
  have enough : Enough 23 record edits := by decide +kernel
  have left : (session (Draft.ofRecord record) edits).toRecord = "a=9;junk;a=9;c=1:2".toList := by
    decide +kernel
  have agrees := ((batch_agrees record edits).1 (by decide) valid 23 enough).2
  exact ⟨valid, enough, left, agrees.trans (congrArg _ left)⟩

end Edit

end LedgerGovernance
