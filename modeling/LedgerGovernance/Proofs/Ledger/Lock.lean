import LedgerGovernance.Proofs.Ledger.Writing

/-! Taking the lock and giving it back, on any record. Whatever releases the lock leaves
a record that is not locked. A record that was just locked can always be released, since
one digit takes the place of another; of any other record the release may be refused for
want of room. Nothing here is ever at fault for its arguments. -/

namespace LedgerGovernance

/-! ## Outcomes that are no fault of an argument -/

namespace Outcome

variable {α β : Type}

/-- A result or a refusal, but not an argument of the wrong type. -/
def WellTyped (outcome : Outcome α) : Prop :=
  ∀ argument, outcome ≠ .error (.illTyped argument)

theorem wellTyped_ok (value : α) : WellTyped (.ok value) := nofun

theorem wellTyped_refuse (failure : Failure) : WellTyped (refuse failure : Outcome α) := nofun

theorem ofFound_wellTyped (failure : Failure) (found : Option α) :
    (ofFound failure found).WellTyped := by
  cases found with
  | none => exact wellTyped_refuse failure
  | some value => exact wellTyped_ok value

theorem WellTyped.bind {outcome : Outcome α} {next : α → Outcome β}
    (wellTyped : outcome.WellTyped) (rest : ∀ value, (next value).WellTyped) :
    WellTyped (outcome >>= next) := by
  cases outcome with
  | ok value => exact rest value
  | error fault =>
      intro argument same
      cases same
      exact wellTyped argument rfl

end Outcome

namespace Draft

variable {draft : Draft} {key value : Text}

theorem encode_wellTyped (draft : Draft) (capacity : Number) :
    (draft.encode capacity).WellTyped := by
  unfold encode
  dsimp only
  split
  · exact Outcome.wellTyped_refuse _
  · exact Outcome.wellTyped_ok _

theorem replace?_wellTyped (writable : Writable key value) :
    (draft.replace? key value).WellTyped := by
  have passed : checkEntry key value = .ok () := checkEntry_eq_ok.mpr writable
  rw [replace?, passed]
  exact Outcome.wellTyped_ok _

theorem set_wellTyped (writable : Writable key value) : (draft.set key value).WellTyped := by
  apply (replace?_wellTyped writable).bind
  intro replaced
  cases replaced with
  | some replaced => exact Outcome.wellTyped_ok _
  | none =>
      have passed : checkEntry key value = .ok () := checkEntry_eq_ok.mpr writable
      dsimp only
      rw [append, passed]
      exact Outcome.wellTyped_ok _

end Draft

namespace Proposals

theorem lock_writable (locked : Bool) :
    Draft.Writable Key.lock.text [if locked then '1' else '0'] :=
  Key.writable_text .lock (by cases locked <;> decide)

theorem setLock_wellTyped (params : Params) (record : Text) (locked : Bool) :
    (setLock params record locked).WellTyped := by
  apply (Draft.set_wellTyped (lock_writable locked)).bind
  intro draft
  exact draft.encode_wellTyped _

/-- A lock that is written twice is as it was written last. -/
theorem setLock_setLock {params : Params} {record locked : Text} {first : Bool} (second : Bool)
    (done : setLock params record first = .ok locked) :
    setLock params locked second = setLock params record second := by
  rcases Outcome.bind_eq_ok.mp done with ⟨draft, setting, encoding⟩
  have whole := (Draft.Revised.set setting).whole (Draft.whole_ofRecord record)
  have again : Draft.ofRecord locked = draft := by
    rw [← (Draft.encode_eq_ok.mp encoding).2, Draft.ofRecord_toRecord whole]
  rw [setLock, setLock, again, Draft.set_set setting (lock_writable second)]

theorem setState_wellTyped (params : Params) (record : Text) (index code : Nat) :
    (setState params record index code).WellTyped := by
  apply (Draft.replace?_wellTyped (Key.writable_text _ (Text.decimal_plain code))).bind
  intro replaced
  cases replaced with
  | none => exact Outcome.wellTyped_refuse _
  | some draft => exact draft.encode_wellTyped _

end Proposals

namespace Operations

theorem setState_wellTyped (params : Params) (record : Text) (index : Nat)
    (state : OperationState) : (setState params record index state).WellTyped := by
  apply (Draft.replace?_wellTyped (Key.writable_text _ (Text.decimal_plain state.code))).bind
  intro replaced
  cases replaced with
  | none => exact Outcome.wellTyped_refuse _
  | some draft => exact draft.encode_wellTyped _

theorem indexOfProposal_wellTyped (record : Text) (proposalId : Nat) :
    (indexOfProposal record proposalId).WellTyped := by
  rw [indexOfProposal_eq_ofFound]
  exact Outcome.ofFound_wellTyped _ _

theorem requireReady_wellTyped (params : Params) (record : Text) (index : Nat) (now : Number) :
    (requireReady params record index now).WellTyped := by
  unfold requireReady
  split
  · exact Outcome.wellTyped_ok _
  · exact Outcome.wellTyped_refuse _
  · exact Outcome.wellTyped_refuse _

theorem checkExecutable_wellTyped (params : Params) (record : Text) (index : Nat)
    (now : Number) : (checkExecutable params record index now).WellTyped := by
  unfold checkExecutable
  dsimp only
  split
  · exact Outcome.wellTyped_refuse _
  · exact requireReady_wellTyped params record index now

theorem executeInOrder_wellTyped (params : Params) (record : Text) (index : Nat)
    (now : Number) : (executeInOrder params record index now).WellTyped := by
  apply (checkExecutable_wellTyped params record index now).bind
  intro _
  exact setState_wellTyped params record index .done

end Operations

namespace Execution

theorem complete_wellTyped (params : Params) (record : Text) {id : Nat} (fits : id ≤ maxU32)
    (now : Number) : (complete params record (id : Number) now).WellTyped := by
  unfold complete
  rw [Number.u32_eq_ok.mpr ⟨rfl, fits⟩]
  apply (Operations.indexOfProposal_wellTyped record id).bind
  intro index
  apply (Operations.executeInOrder_wellTyped params record index now).bind
  intro executed
  apply Outcome.WellTyped.bind
  · unfold markExecuted
    split
    · exact Proposals.setState_wellTyped params executed _ _
    · exact Outcome.wellTyped_ok _
  · intro marked
    exact Proposals.setLock_wellTyped params marked false

/-! ## What a release leaves -/

private theorem isLocked_of_unlocked {capacity : Nat} {record next : Text}
    (put : Record.Put capacity record .lock ['0'] next) : Proposals.isLocked next = false := by
  rw [Proposals.isLocked, put.read?_self]
  rfl

theorem isLocked_of_releaseLock {params : Params} {record released : Text}
    (done : releaseLock params record = .ok released) :
    Proposals.isLocked released = false :=
  isLocked_of_unlocked (Proposals.setLock_eq_ok done)

theorem isLocked_of_complete {params : Params} {record next : Text} {proposalId now : Number}
    (done : complete params record proposalId now = .ok next) :
    Proposals.isLocked next = false := by
  rcases complete_eq_ok done with ⟨id, index, executed, marked, completed⟩
  exact isLocked_of_unlocked completed.releasing

theorem isLocked_of_start {params : Params} {record locked : Text} {caller : Account}
    (done : start params record caller = .ok locked) : Proposals.isLocked locked = true := by
  rw [Proposals.isLocked, (start_eq_ok done).2.2.read?_self]
  rfl

end Execution

/-! ## Room for a release -/

namespace Execution

variable {params : Params} {record locked next : Text}

/-- A record under the lock: it was written within the capacity, and every entry for the
lock, shadowed ones included, says that the lock is taken. -/
structure Held (params : Params) (record : Text) : Prop where
  locked : Proposals.isLocked record = true
  encoded : Record.Encoded params.recordCapacity record
  taken : Record.AllUnder record .lock (· = ['1'])

theorem held_of_start {caller : Account} (done : start params record caller = .ok locked) :
    Held params locked := by
  have put := (start_eq_ok done).2.2
  exact ⟨isLocked_of_start done, put.encoded, put.allUnder⟩

namespace Held

/-- What does not write the lock keeps it. -/
theorem written (held : Held params record) {writes : Key → Text → Prop}
    (done : Record.Written writes params.recordCapacity record next)
    (free : ∀ value, ¬ writes .lock value) : Held params next where
  locked := by
    rw [Proposals.isLocked, done.read?_eq free]
    exact held.locked
  encoded := done.encoded
  taken := done.allUnder held.taken fun value written => absurd written (free value)

/-- A release writes over each entry for the lock where it stands. -/
theorem releaseLock_eq (held : Held params record) :
    releaseLock params record =
      .ok ((Draft.ofRecord record).overwrite Key.lock.text ['0']).toRecord := by
  have present : (Record.read? record .lock).isSome = true := by
    rw [beq_iff_eq.mp held.locked]
    rfl
  have digits : Record.AllUnder record .lock fun old =>
      Text.utf8Size old = Text.utf8Size ['0'] := held.taken.mono (by rintro _ rfl; rfl)
  rw [releaseLock, Proposals.setLock, Outcome.bind_eq_ok]
  refine ⟨_, ?_, held.encoded.encode_overwrite digits⟩
  exact Outcome.bind_eq_ok.mpr
    ⟨_, Record.replace?_of_present present (by decide), rfl⟩

/-- Records under the lock that are released to the same text are the same. -/
theorem eq_of_released {other released : Text} (held : Held params record)
    (otherHeld : Held params other) (done : releaseLock params record = .ok released)
    (otherDone : releaseLock params other = .ok released) : record = other := by
  rw [held.releaseLock_eq, Except.ok.injEq] at done
  rw [otherHeld.releaseLock_eq, Except.ok.injEq] at otherDone
  have writable : Draft.Writable Key.lock.text ['0'] := Proposals.lock_writable false
  have drafts : (Draft.ofRecord record).overwrite Key.lock.text ['0'] =
      (Draft.ofRecord other).overwrite Key.lock.text ['0'] := by
    rw [← Draft.ofRecord_toRecord ((Draft.whole_ofRecord record).overwrite writable),
      ← Draft.ofRecord_toRecord ((Draft.whole_ofRecord other).overwrite writable)]
    exact congrArg Draft.ofRecord (done.trans otherDone.symm)
  have before := congrArg (Draft.overwrite · Key.lock.text ['1']) drafts
  rw [Draft.overwrite_overwrite held.taken, Draft.overwrite_overwrite otherHeld.taken] at before
  rw [← held.encoded.text_eq, ← otherHeld.encoded.text_eq, before]

end Held

/-- A record that was just locked can be released. -/
theorem releaseLock_of_start {caller : Account}
    (done : start params record caller = .ok locked) :
    ∃ released, releaseLock params locked = .ok released :=
  ⟨_, (held_of_start done).releaseLock_eq⟩

end Execution

end LedgerGovernance
