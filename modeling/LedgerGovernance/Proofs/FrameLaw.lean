import LedgerGovernance.Proofs.Ledger.Footprints
import LedgerGovernance.Proofs.Runs

/-! The frame of an action. Every action splits the whole record, edits it and joins it
again, and the record may be any text: entries may be repeated, shadowed or malformed. An
action writes under the few keys of its footprint; everything else reads as before, and what
is no entry with a key stays where it is. -/

namespace LedgerGovernance

open Record (Spares)

/-- The keys that an action of `caller` may write to. -/
def Action.footprint (record : Text) (caller : Account) : Action → List Key
  | selfRegister => Members.footprint record caller
  | setVotingPower account _ | grantRole account _ | revokeRole account _ =>
      Members.footprint record account
  | delegate _ => [.delegate caller]
  | snapshot proposalId account => proposalId.u32.keys fun id => [.snapshot id account]
  | propose _ => Proposals.footprint record
  | castVote proposalId support =>
      (Actions.addressed record proposalId).keys fun index =>
        (Ballots.judgeSupport support).keys fun choice =>
          [.proposal index (Ballots.tallyField choice), .vote index (Ballots.count record index)]
  | submitVoteIntent proposalId _ => proposalId.u32.keys fun id => [.intent id caller]
  | cancel proposalId =>
      (Actions.addressed record proposalId).keys fun index => [.proposal index .state]
  | queue proposalId =>
      (Actions.addressed record proposalId).keys fun index =>
        .proposal index .state :: Operations.footprint record
  | execute proposalId => proposalId.u32.keys (Execution.footprint record)

section

variable {params : Params} {record next : Text}

namespace Action

theorem footprint_snapshot {id : Nat} (fits : id ≤ maxU32) (record : Text)
    (caller account : Account) :
    (snapshot (id : Number) account).footprint record caller = [.snapshot id account] := by
  rw [footprint, Number.u32_eq_ok.mpr ⟨rfl, fits⟩, Outcome.keys_ok]

theorem footprint_submitVoteIntent {id : Nat} (fits : id ≤ maxU32) (record : Text)
    (caller : Account) (support : Number) :
    (submitVoteIntent (id : Number) support).footprint record caller = [.intent id caller] := by
  rw [footprint, Number.u32_eq_ok.mpr ⟨rfl, fits⟩, Outcome.keys_ok]

theorem footprint_castVote {proposalId support : Number} {index : Nat} {choice : VoteSupport}
    (addressed : Actions.addressed record proposalId = .ok index)
    (choice_eq : VoteSupport.ofNumber? support = some choice) (caller : Account) :
    (castVote proposalId support).footprint record caller =
      [.proposal index (Ballots.tallyField choice),
        .vote index (Ballots.count record index)] := by
  have judged := Ballots.judgeSupport_eq_ok.mpr choice_eq
  rw [footprint, addressed, Outcome.keys_ok, judged, Outcome.keys_ok]

theorem footprint_cancel {proposalId : Number} {index : Nat}
    (addressed : Actions.addressed record proposalId = .ok index) (caller : Account) :
    (cancel proposalId).footprint record caller = [.proposal index .state] := by
  rw [footprint, addressed, Outcome.keys_ok]

theorem footprint_queue {proposalId now : Number} {id index readyAt : Nat}
    {scheduled : Operations.Scheduled}
    (passed : Actions.Queued params record proposalId now id index readyAt scheduled next)
    (caller : Account) :
    (queue proposalId).footprint record caller =
      .proposal index .state :: Operations.footprint record := by
  have addressed : Actions.addressed record proposalId = .ok index :=
    Outcome.bind_eq_ok.mpr ⟨id, passed.opened.proposalId_eq, passed.index_eq⟩
  rw [footprint, addressed, Outcome.keys_ok]

theorem footprint_execute {locked executed marked : Text} {proposalId now : Number}
    {id index : Nat}
    (completed : Execution.Completed params locked proposalId now id index executed marked next)
    (record : Text) (caller : Account) :
    (execute proposalId).footprint record caller = Execution.footprint record id := by
  rw [footprint, completed.proposalId_eq, Number.u32_eq_ok.mpr ⟨rfl, completed.id_le⟩,
    Outcome.keys_ok]

end Action

theorem Action.Effect.spares {action : Action} {caller : Account} {now : Number}
    (effect : Action.Effect params record caller now action next) :
    Spares (action.footprint record caller) record next := by
  cases effect with
  | registered => exact .refl _ _
  | entered entrant entered =>
      cases action with
      | selfRegister | setVotingPower account _ | grantRole account _ | revokeRole account _ =>
          cases entrant
          exact entered.spares
      | _ => cases entrant
  | delegated delegated => exact delegated.spares
  | snapshot taken fits =>
      rw [footprint_snapshot fits]
      exact taken.spares
  | proposed opened => exact opened.spares
  | voted addressed counted choiceEq =>
      rw [footprint_castVote addressed choiceEq]
      exact counted.revised.spares List.mem_cons_self (by simp)
  | intended _ put fits =>
      rw [footprint_submitVoteIntent fits]
      exact put.spares List.mem_cons_self
  | canceled addressed revised =>
      rw [footprint_cancel addressed]
      exact revised.spares List.mem_cons_self nofun
  | @queued _ _ index _ _ _ passed =>
      rw [footprint_queue passed]
      have scheduled := passed.opened.spares.mono
        (List.subset_cons_self (.proposal index .state) _)
      exact scheduled.trans (passed.marked.spares List.mem_cons_self nofun)
  | executed locking completed =>
      rw [footprint_execute completed]
      exact completed.spares (locking.spares List.mem_cons_self)

/-- Whatever text a record is, an action that has a result changes no answer outside of its
footprint, and keeps the entries without a separator as they stand. -/
theorem Action.apply_frame {action : Action} {caller : Account} {now : Number}
    {receipt : Receipt} (done : action.apply params record caller now = .ok receipt) :
    (∀ key : Text, key ∉ (action.footprint record caller).map Key.text →
      Record.findValue receipt.record key = Record.findValue record key) ∧
    (Draft.ofRecord receipt.record).unkeyed = (Draft.ofRecord record).unkeyed :=
  have spares := (Action.effect_of_apply done).spares
  ⟨fun _ unlisted => spares.findValue_eq unlisted, spares.unkeyed_eq⟩

end

namespace Sample

/-- A record with text between its entries and a counter that is none. -/
def littered : Text :=
  "junk;member_count=x;;=;member_00=1;member_count=7;é;_lock=1;junk".toList

/-- The littered record with Bob as its only member. -/
def registered : Text :=
  "junk;=;member_00=1;é;_lock=1;junk;member_count=1;".toList ++
    "member_0=0202020202020202020202020202020202020202:100:0".toList

theorem frame_littered :
    Action.apply params littered bob 90 .selfRegister = .ok { record := registered } ∧
      (∀ key : Text, key ∉ ["member_count".toList, "member_0".toList] →
        Record.findValue registered key = Record.findValue littered key) ∧
      (Draft.ofRecord registered).unkeyed = ["junk".toList, "é".toList, "junk".toList] := by
  have done : Action.apply params littered bob 90 .selfRegister =
      .ok { record := registered } := by
    decide +kernel
  have footprint : (Action.selfRegister.footprint littered bob).map Key.text =
      ["member_count".toList, "member_0".toList] := by
    decide +kernel
  have frame := Action.apply_frame done
  rw [footprint] at frame
  exact ⟨done, frame.1, frame.2.trans (by decide +kernel)⟩

end Sample

end LedgerGovernance
