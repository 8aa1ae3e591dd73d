import LedgerGovernance.Proofs.Checked.Actions
import LedgerGovernance.Proofs.Checked.Views
import LedgerGovernance.Proofs.Runs

/-! Everything that can be asked of a ledger has an answer, whatever text its record is: a
result or a refusal, but never a key that cannot be built or a value that cannot be written.
The arguments have to be of their types; the record need not be one that was ever written. -/

namespace LedgerGovernance

section

variable (params : Params) (record : Text) {caller account : Account}
  (callerSize : caller.length = Account.size) (size : account.length = Account.size)
  {id now : Nat} (idFits : id ≤ maxU32) (nowFits : now ≤ maxU32)

/-! ## No argument is at fault -/

namespace Actions

include callerSize in
theorem selfRegister_wellTyped : (selfRegister params record caller).WellTyped := by
  unfold selfRegister
  split
  · exact Outcome.wellTyped_ok _
  · exact Members.set_wellTyped params record callerSize _ 0

include callerSize size in
theorem setVotingPower_wellTyped (power : Int) :
    (setVotingPower params record caller account power).WellTyped :=
  (Members.requireRole_wellTyped record callerSize .admin).bind fun _ =>
    Members.set_wellTyped params record size power _

include callerSize size in
theorem grantRole_wellTyped (role : Number) :
    (grantRole params record caller account role).WellTyped :=
  (Members.requireRole_wellTyped record callerSize .admin).bind fun _ =>
    Members.set_wellTyped params record size _ _

include callerSize size in
theorem revokeRole_wellTyped (role : Number) :
    (revokeRole params record caller account role).WellTyped :=
  (Members.requireRole_wellTyped record callerSize .admin).bind fun _ =>
    Members.set_wellTyped params record size _ _

include idFits in
theorem addressed_wellTyped : (addressed record (id : Number)).WellTyped := by
  rw [addressed, Number.u32_natCast idFits]
  exact Proposals.indexOf_wellTyped record id

include size idFits in
theorem snapshot_wellTyped : (snapshot params record (id : Number) account).WellTyped :=
  (addressed_wellTyped record idFits).bind fun _ =>
    Delegations.snapshot_wellTyped params record idFits size

include callerSize nowFits in
theorem propose_wellTyped {description : Option Number}
    (wellTyped : ∀ number ∈ description, number.IsWord) :
    (propose params record caller now description).WellTyped := by
  rcases Digest.description_isWord now wellTyped with ⟨hash, hashFits, hashEq⟩
  rw [propose, ← Checked.readEffectiveVotes_eq record callerSize,
    Checked.effectiveVotes_eq record callerSize, Outcome.ok_bind, hashEq]
  exact Proposals.propose_wellTyped params record callerSize hashFits nowFits _

include callerSize idFits in
theorem castVote_wellTyped (support now : Number) :
    (castVote params record caller id support now).WellTyped := by
  refine (addressed_wellTyped record idFits).bind fun index => ?_
  rw [← Checked.readEffectiveVotes_eq record callerSize,
    Checked.effectiveVotes_eq record callerSize, Outcome.ok_bind]
  exact (Ballots.judgeSupport_wellTyped support).bind fun choice =>
    Ballots.cast_wellTyped params record index callerSize choice _ now _

include callerSize idFits in
theorem submitVoteIntent_wellTyped (support : Number) :
    (submitVoteIntent params record caller id support).WellTyped :=
  (addressed_wellTyped record idFits).bind fun _ =>
    Intents.submit_wellTyped params record idFits support callerSize

include idFits in
theorem cancel_wellTyped (now : Number) : (cancel params record caller id now).WellTyped :=
  (addressed_wellTyped record idFits).bind fun index =>
    Proposals.cancel_wellTyped params record index caller now _

include idFits nowFits in
theorem queue_wellTyped : (queue params record id now).WellTyped := by
  rw [queue, Number.u32_natCast idFits, Outcome.ok_bind]
  refine (Proposals.indexOf_wellTyped record id).bind fun index => ?_
  split
  · exact Outcome.wellTyped_refuse _
  · refine (Operations.schedule_wellTyped params record idFits nowFits
      params.timelockMinDelay_le).bind fun scheduled => ?_
    exact (Proposals.setState_wellTyped params scheduled.record index _).bind fun next =>
      Outcome.wellTyped_ok _

end Actions

namespace Execution

include callerSize in
theorem start_wellTyped : (start params record caller).WellTyped := by
  refine (Members.requireRole_wellTyped record callerSize .executor).bind fun _ => ?_
  split
  · exact Outcome.wellTyped_refuse _
  · exact Proposals.setLock_wellTyped params record true

include idFits in
theorem validate_wellTyped (now : Number) : (validate params record id now).WellTyped := by
  rw [validate, Number.u32_natCast idFits, Outcome.ok_bind]
  refine (Operations.indexOfProposal_wellTyped record id).bind fun index => ?_
  exact (Operations.checkExecutable_wellTyped params record index now).bind fun _ =>
    Outcome.wellTyped_ok _

include callerSize idFits in
theorem run_wellTyped (now : Number) : (run params record caller id now).WellTyped :=
  (start_wellTyped params record callerSize).bind fun locked =>
    complete_wellTyped params locked idFits now

end Execution

include callerSize nowFits in
theorem Action.apply_wellTyped {action : Action} (wellTyped : action.WellTyped) :
    (action.apply params record caller now).WellTyped := by
  cases action with
  | selfRegister =>
      exact (Actions.selfRegister_wellTyped params record callerSize).bind fun _ =>
        Outcome.wellTyped_ok _
  | setVotingPower account power =>
      exact (Actions.setVotingPower_wellTyped params record callerSize wellTyped power).bind
        fun _ => Outcome.wellTyped_ok _
  | grantRole account role =>
      exact (Actions.grantRole_wellTyped params record callerSize wellTyped role).bind fun _ =>
        Outcome.wellTyped_ok _
  | revokeRole account role =>
      exact (Actions.revokeRole_wellTyped params record callerSize wellTyped role).bind fun _ =>
        Outcome.wellTyped_ok _
  | delegate target =>
      exact (Delegations.delegate_wellTyped params record callerSize wellTyped).bind fun _ =>
        Outcome.wellTyped_ok _
  | snapshot proposalId account =>
      rcases wellTyped with ⟨⟨id, fits, rfl⟩, size⟩
      exact (Actions.snapshot_wellTyped params record size fits).bind fun _ =>
        Outcome.wellTyped_ok _
  | propose description =>
      exact (Actions.propose_wellTyped params record callerSize nowFits wellTyped).bind fun _ =>
        Outcome.wellTyped_ok _
  | castVote proposalId support =>
      rcases wellTyped with ⟨id, fits, rfl⟩
      exact (Actions.castVote_wellTyped params record callerSize fits support now).bind fun _ =>
        Outcome.wellTyped_ok _
  | submitVoteIntent proposalId support =>
      rcases wellTyped with ⟨id, fits, rfl⟩
      exact (Actions.submitVoteIntent_wellTyped params record callerSize fits support).bind
        fun _ => Outcome.wellTyped_ok _
  | cancel proposalId =>
      rcases wellTyped with ⟨id, fits, rfl⟩
      exact (Actions.cancel_wellTyped params record fits now).bind fun _ =>
        Outcome.wellTyped_ok _
  | queue proposalId =>
      rcases wellTyped with ⟨id, fits, rfl⟩
      exact (Actions.queue_wellTyped params record fits nowFits).bind fun _ =>
        Outcome.wellTyped_ok _
  | execute proposalId =>
      rcases wellTyped with ⟨id, fits, rfl⟩
      exact (Execution.run_wellTyped params record callerSize fits now).bind fun _ =>
        Outcome.wellTyped_ok _

namespace Views

include idFits in
theorem describeProposal_wellTyped (now : Number) :
    (describeProposal params record id now).WellTyped := by
  rw [describeProposal, Number.u32_natCast idFits, Outcome.ok_bind]
  refine (Proposals.indexOf_wellTyped record id).bind fun index => ?_
  split
  · exact Outcome.wellTyped_ok _
  · exact Outcome.wellTyped_refuse _

include idFits in
theorem describeOperation_wellTyped (now : Number) :
    (describeOperation params record id now).WellTyped := by
  rw [describeOperation, Number.u32_natCast idFits, Outcome.ok_bind]
  refine (Operations.indexOf_wellTyped record id).bind fun index => ?_
  split
  · exact Outcome.wellTyped_ok _
  · exact Outcome.wellTyped_refuse _

end Views

/-! ## Every question has an answer -/

namespace Checked

/-- What is asked has the same answer when every check is made, and no argument is at fault
in it. -/
def Agrees {α : Type} (checked plain : Outcome α) : Prop :=
  checked = plain ∧ plain.WellTyped

/-- Actions, the steps of an execution and views have answers on a record. -/
structure Answers (params : Params) (record : Text) (caller : Account) (now : Nat) :
    Prop where
  applied (action : Action) (wellTyped : action.WellTyped) :
    Agrees (apply params record caller now action) (action.apply params record caller now)
  started : Agrees (start params record caller) (Execution.start params record caller)
  validated (id : Nat) (fits : id ≤ maxU32) :
    Agrees (validate params record id now) (Execution.validate params record id now)
  completed (id : Nat) (fits : id ≤ maxU32) :
    Agrees (complete params record id now) (Execution.complete params record id now)
  released : Agrees (setLock params record false) (Execution.releaseLock params record)
  members : memberViews record = .ok (Views.members record)
  proposals : proposalViews params record now = .ok (Views.proposals params record now)
  proposal (id : Nat) (fits : id ≤ maxU32) :
    Agrees (describeProposal params record id now) (Views.describeProposal params record id now)
  operation (id : Nat) (fits : id ≤ maxU32) :
    Agrees (describeOperation params record id now)
      (Views.describeOperation params record id now)

include callerSize nowFits in
theorem answers_on_any_record : Answers params record caller now where
  applied _ wellTyped := ⟨apply_eq params record callerSize nowFits wellTyped,
    Action.apply_wellTyped params record callerSize nowFits wellTyped⟩
  started := ⟨start_eq params record, Execution.start_wellTyped params record callerSize⟩
  validated _ fits :=
    ⟨validate_eq params record fits now, Execution.validate_wellTyped params record fits now⟩
  completed _ fits :=
    ⟨complete_eq params record fits now, Execution.complete_wellTyped params record fits now⟩
  released := ⟨setLock_eq params record false, Proposals.setLock_wellTyped params record false⟩
  members := memberViews_eq record
  proposals := proposalViews_eq params record now
  proposal _ fits := ⟨describeProposal_eq params record fits now,
    Views.describeProposal_wellTyped params record fits now⟩
  operation _ fits := ⟨describeOperation_eq params record fits now,
    Views.describeOperation_wellTyped params record fits now⟩

end Checked

end

namespace Sample

/-- A record that no action has written: a counter that is none, one that is as great as it
can be though nothing of what it counts is there, and text without a separator. -/
def spoiled : Text :=
  "op_count=255;member_count=x;é;=;prop_0_id;proposal_count=1;".toList ++
    "prop_0_id=7;prop_0_state=0;prop_0_for=1".toList

/-- The last index that an operation can have is still given away. -/
theorem spoiled_answers :
    alice.length = Account.size ∧ 16 ≤ maxU32 ∧ Checked.Answers params spoiled alice 16 ∧
      (Checked.apply params spoiled alice (16 : Nat) (.queue 7)).toOption.map
        Receipt.operationId = some (some 1952963945) ∧
      Checked.apply params spoiled alice (16 : Nat) (.castVote 7 .nan) =
        Outcome.refuse (.unknownSupport .nan) := by
  have answers := Checked.answers_on_any_record params spoiled
    (show alice.length = Account.size by decide) (show 16 ≤ maxU32 by decide)
  refine ⟨by decide, by decide, answers, ?_, ?_⟩
  · rw [(answers.applied (.queue 7) ⟨7, by decide, rfl⟩).1]
    decide +kernel
  · rw [(answers.applied (.castVote 7 .nan) ⟨7, by decide, rfl⟩).1]
    decide +kernel

end Sample

end LedgerGovernance
