import LedgerGovernance.Ledger.Views
import LedgerGovernance.Proofs.Ledger.Seats

/-! What was written is found again. On a record of a coherent ledger, the account that an
action enters is a member behind it, and the proposal that an action is about, or has made,
can be described. Neither goes without saying: lookups go by the first entry that matches,
and a proposal is only described where all its entries decode. -/

namespace LedgerGovernance

variable {params : Params} {record next : Text} {ledger : Ledger}

/-! ## Members -/

theorem Represents.find?_isSome (holds : Represents record ledger) (account : Account) :
    (Members.find? record account).isSome = (ledger.standing? account).isSome := by
  rw [← holds.standing?_eq, Members.standing?, Option.isSome_map]

/-- A member that was entered is found. -/
theorem Represents.found_of_set (holds : Represents record ledger) {account : Account}
    {power : Int} {mask : Number}
    (done : Members.set params record account power mask = .ok next) :
    (Members.find? next account).isSome = true := by
  rcases holds.set done with ⟨seat, after, seated, nextHolds⟩
  rw [nextHolds.find?_isSome, seated.entered.standing?_eq, seated.account_eq,
    Function.update_self]
  rfl

theorem Represents.entrant_found (holds : Represents record ledger) {caller account : Account}
    {now : Number} {action : Action} {receipt : Receipt}
    (done : action.apply params record caller now = .ok receipt)
    (entrant : action.entrant? caller = some account) :
    (Members.find? receipt.record account).isSome = true := by
  cases action with
  | selfRegister =>
      cases entrant
      rcases Outcome.map_eq_ok.mp done with ⟨next, registering, rfl⟩
      unfold Actions.selfRegister at registering
      split at registering
      · rename_i member found
        cases registering
        rw [found]
        rfl
      · exact holds.found_of_set registering
  | setVotingPower | grantRole | revokeRole =>
      cases entrant
      rcases Outcome.map_eq_ok.mp done with ⟨next, writing, rfl⟩
      rcases Outcome.bind_eq_ok.mp writing with ⟨granted, -, entering⟩
      exact holds.found_of_set entering
  | _ => cases entrant

/-! ## Proposals -/

/-- The id of the proposal that an action changes. -/
def Action.subject? : Action → Option Number
  | castVote id _ | cancel id | queue id | execute id => some id
  | _ => none

/-- What a proposal is found under, it is still found under once it has changed. -/
theorem Ledger.Step.subject_found {caller : Account} {now : Number} {action : Action}
    {before after : Ledger} (step : Step params caller now before action after)
    {subject : Number} (about : action.subject? = some subject) :
    ∃ id index : Nat, subject = (id : Number) ∧ after.indexOf id = some index := by
  have kept {id index : Nat} {old new : Motion} (addressed : before.indexOf id = some index)
      (found : before.motions[index]? = some old) (same : new.id = old.id) :
      (before.setMotion index new).indexOf id = some index :=
    (Ledger.indexOf_setMotion found same id).trans addressed
  cases step with
  | voted addressed found | canceled addressed found | queued addressed found
  | executed addressed found =>
      cases about
      refine ⟨_, _, rfl, kept addressed found ?_⟩
      rfl
  | entered appoints => cases appoints <;> cases about
  | _ => cases about

/-- The id of a proposal leads to a proposal, though maybe to an earlier one. -/
theorem Ledger.exists_indexOf {ledger : Ledger} {motion : Motion}
    (member : motion ∈ ledger.motions) : ∃ index, ledger.indexOf motion.id = some index := by
  cases addressed : ledger.indexOf motion.id with
  | none =>
      have missed := List.findIdx?_eq_none_iff.mp addressed motion member
      exact absurd rfl (of_decide_eq_false missed)
  | some index => exact ⟨index, rfl⟩

theorem Represents.exists_describeProposal (holds : Represents record ledger) {id index : Nat}
    (addressed : ledger.indexOf id = some index) (now : Number) :
    ∃ view, Views.describeProposal params record (id : Number) now = .ok view := by
  rcases Ledger.indexOf_eq_some addressed with ⟨motion, found, rfl⟩
  have fits : (motion.id : Number).u32 = .ok motion.id :=
    Number.u32_eq_ok.mpr ⟨rfl, motion.id_le⟩
  rw [Views.describeProposal, fits, Outcome.ok_bind, holds.indexOf_eq_ok.mpr addressed,
    Outcome.ok_bind, holds.proposalAt?_eq found]
  exact ⟨_, rfl⟩

theorem Represents.subject_described (holds : Represents record ledger)
    (coherent : ledger.Coherent) {caller : Account} {now : Number} {action : Action}
    {receipt : Receipt} (done : action.apply params record caller now = .ok receipt)
    {subject : Number} (about : action.subject? = some subject) (time : Number) :
    ∃ view, Views.describeProposal params receipt.record subject time = .ok view := by
  rcases holds.apply coherent done with ⟨after, nextHolds, step⟩
  rcases step.subject_found about with ⟨id, index, rfl, addressed⟩
  exact nextHolds.exists_describeProposal addressed time

/-- A proposal that was made is described under the id that was answered. -/
theorem Represents.proposed_described (holds : Represents record ledger) {caller : Account}
    {now : Number} {description : Option Number} {receipt : Receipt}
    (done : (Action.propose description).apply params record caller now = .ok receipt)
    (time : Number) :
    ∃ id view, receipt.proposalId = some id ∧
      Views.describeProposal params receipt.record (id : Number) time = .ok view := by
  rcases Outcome.map_eq_ok.mp done with ⟨proposed, proposing, rfl⟩
  rcases holds.propose proposing with ⟨motion, room, idEq, nextHolds, -⟩
  have member : motion ∈ (ledger.addMotion motion room).motions :=
    List.mem_append_right _ (List.mem_singleton_self _)
  rcases Ledger.exists_indexOf member with ⟨index, addressed⟩
  rcases nextHolds.exists_describeProposal addressed time with ⟨view, described⟩
  exact ⟨motion.id, view, by rw [idEq], described⟩

end LedgerGovernance
