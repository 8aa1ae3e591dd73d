import LedgerGovernance.Proofs.Runs
import LedgerGovernance.Proofs.Timelock.Counter

/-! What was written is read back. Proposals, operations, votes, delegations, snapshots and
intents each have a writer and a reader, which share no more than the key and the form of a
value. A reader goes by the first entry under its key, so an older entry would shadow a new
one; on the records of a run none is there. -/

namespace LedgerGovernance

/-- The proposal that an account has made at a time. -/
def Proposals.Proposed.proposal (proposed : Proposed) (params : Params) (proposer : Account)
    (time description : Nat) : Proposal where
  index := proposed.index
  id := proposed.proposalId
  proposer
  voteStart := time + params.votingDelay
  voteEnd := time + params.votingDelay + params.votingPeriod
  storedState := .pending
  forVotes := 0
  againstVotes := 0
  abstainVotes := 0
  description

/-- Whatever a call writes to the record, the reader of its kind finds behind it. -/
structure Record.ReadsBack (params : Params) (record : Text) : Prop where
  proposal : ∀ (proposer : Account) (description now : Number) (votes : Int)
    (proposed : Proposals.Proposed),
    Proposals.propose params record proposer description now votes = .ok proposed →
      ∃ (time hash : Nat) (proposal : Proposal), now = (time : Number) ∧
        description = (hash : Number) ∧
        proposal = proposed.proposal params proposer time hash ∧
        proposal.voteStart ≤ proposal.voteEnd ∧ proposal.voteEnd ≤ maxU32 ∧
        Proposals.at? proposed.record proposed.index = some proposal
  operation : ∀ (proposalId now delay : Number) (predecessorId : Option Number)
    (scheduled : Operations.Scheduled),
    Operations.schedule params record proposalId now delay predecessorId = .ok scheduled →
      ∃ (time : Nat) (operation : Operation), now = (time : Number) ∧
        Timelock.ReadBack proposalId now delay predecessorId scheduled operation ∧
        ∀ wait : Nat, wait ≤ maxU32 → delay = (wait : Number) → operation.readyAt = time + wait
  vote : ∀ (index : Number) (voter : Account) (support : Number) (weight : Int) (now : Number)
    (total : Int) (next : Text),
    Ballots.castAt params record index voter support weight now total = .ok next →
      ∃ (place : Nat) (vote : Vote), index = (place : Number) ∧ vote.voter = voter ∧
        support = (vote.support.code : Number) ∧ weight = vote.weight ∧
        Ballots.find? next place voter = some vote ∧ Ballots.hasVoted next place voter = true
  delegation : ∀ (voter target : Account) (next : Text),
    Delegations.delegate params record voter target = .ok next →
      Delegations.readDelegate next voter = .ok target
  snapshot : ∀ (proposalId : Number) (account : Account) (taken : Delegations.Snapshot),
    Delegations.snapshot params record proposalId account = .ok taken →
      Delegations.readSnapshot taken.record proposalId account = .ok taken.votingPower
  intent : ∀ (proposalId support : Number) (voter : Account) (next : Text),
    Intents.submit params record proposalId support voter = .ok next →
      ∃ choice : VoteSupport, support = (choice.code : Number) ∧
        Intents.read? next proposalId voter = .ok (some choice)

/-! ## Entries that are read by their key alone

A delegation, a snapshot or an intent is read back on any text. -/

namespace Delegations

variable {params : Params} {record : Text}

theorem readDelegate_of_delegate {voter target : Account} {next : Text}
    (done : delegate params record voter target = .ok next) :
    readDelegate next voter = .ok target := by
  rcases delegate_eq_ok done with ⟨voterSize, targetSize, delegated⟩
  have stored := congrFun delegated.read?_eq (.delegate voter)
  rw [Function.update_self] at stored
  have found : delegateOf next voter = target := by
    rw [delegateOf, stored]
    by_cases same : voter = target
    · rw [if_pos same, Option.bind_none, Option.getD_none, same]
    · rw [if_neg same, Option.bind_some, Account.ofHex?_hex targetSize, Option.getD_some]
  rw [readDelegate, Account.hex_of_size voterSize, Outcome.ok_bind, found]
  rfl

/-- A snapshot that was there already is read back as well. -/
theorem readSnapshot_of_snapshot {proposalId : Number} {account : Account} {taken : Snapshot}
    (done : snapshot params record proposalId account = .ok taken) :
    readSnapshot taken.record proposalId account = .ok taken.votingPower := by
  rcases snapshot_eq_ok done with ⟨size, id, idEq, way⟩
  have found : snapshotVotes taken.record id account = taken.votingPower := by
    cases way with
    | before votingPower stored => rw [snapshotVotes, stored, Option.getD_some]
    | now fits missing put =>
        rw [snapshotVotes, put.read?_self, Option.bind_some, Text.readU64?_decimal fits,
          Option.getD_some]
  rw [readSnapshot, Account.hex_of_size size, Outcome.ok_bind, idEq, Outcome.ok_bind, found]
  rfl

end Delegations

namespace Intents

variable {params : Params} {record : Text}

theorem read?_of_submit {proposalId support : Number} {voter : Account} {next : Text}
    (done : submit params record proposalId support voter = .ok next) :
    ∃ choice : VoteSupport, support = (choice.code : Number) ∧
      read? next proposalId voter = .ok (some choice) := by
  rcases submit_eq_ok done with ⟨id, choice, idEq, choiceEq, size, -, put⟩
  have code_le : choice.code ≤ maxU8 := by cases choice <;> decide
  have found : find? next id voter = some choice := by
    rw [find?, put.read?_self, Option.bind_some, Text.readCount?_decimal code_le,
      Option.bind_some, VoteSupport.ofCode?_code]
  refine ⟨choice, VoteSupport.ofNumber?_eq_some choiceEq, ?_⟩
  rw [read?, Account.hex_of_size size, Outcome.ok_bind, idEq, Outcome.ok_bind, found]
  rfl

end Intents

/-! ## Entries in a row

A proposal, an operation or a vote goes under the next index of its kind, where the ledger
behind the record has nothing. -/

namespace Represents

variable {params : Params} {record : Text} {ledger : Ledger} (holds : Represents record ledger)

include holds

theorem proposed_read {proposer : Account} {description now : Number} {votes : Int}
    {proposed : Proposals.Proposed}
    (done : Proposals.propose params record proposer description now votes = .ok proposed) :
    ∃ (time hash : Nat) (proposal : Proposal), now = (time : Number) ∧
      description = (hash : Number) ∧
      proposal = proposed.proposal params proposer time hash ∧
      proposal.voteStart ≤ proposal.voteEnd ∧ proposal.voteEnd ≤ maxU32 ∧
      Proposals.at? proposed.record proposed.index = some proposal := by
  rcases Proposals.propose_eq_ok done with ⟨voteStart, voteEnd, hash, opened⟩
  rcases Digest.proposed_of_proposalId opened.id_eq with ⟨time, rfl, timeFits⟩
  have begins := Number.eq_add_of_checkedAdd timeFits params.votingDelay_le opened.start_eq
  have ends := Number.eq_add_of_checkedAdd opened.voteStart_le params.votingPeriod_le
    opened.end_eq
  rcases holds.made opened with ⟨room, nextHolds⟩
  have index : proposed.index = ledger.motions.length :=
    opened.index_eq.trans holds.proposalCount_eq
  have found : (ledger.addMotion opened.motion room).motions[proposed.index]? =
      some opened.motion := by
    rw [Ledger.addMotion, getElem?_append_singleton, if_pos index]
  refine ⟨time, hash, opened.motion.proposal proposed.index, rfl,
    (Number.u32_eq_ok.mp opened.description_eq).1, ?_, opened.voteStart_le_voteEnd,
    opened.voteEnd_le, nextHolds.proposalAt?_eq found⟩
  subst ends begins
  rfl

theorem scheduled_read (coherent : ledger.Coherent) {proposalId now delay : Number}
    {predecessorId : Option Number} {scheduled : Operations.Scheduled}
    (done : Operations.schedule params record proposalId now delay predecessorId =
      .ok scheduled) :
    ∃ (time : Nat) (operation : Operation), now = (time : Number) ∧
      Timelock.ReadBack proposalId now delay predecessorId scheduled operation ∧
      ∀ wait : Nat, wait ≤ maxU32 → delay = (wait : Number) →
        operation.readyAt = time + wait := by
  rcases Operations.schedule_eq_ok done with ⟨id, readyAt, predecessor, -, -, opened⟩
  rcases Digest.scheduled_of_operationId opened.id_eq with ⟨time, rfl, timeFits⟩
  rcases holds.booked coherent.bookings_le done with ⟨booking, -, -, read⟩
  refine ⟨time, _, rfl, read, ?_⟩
  rintro wait waitFits rfl
  exact Number.eq_add_of_checkedAdd timeFits waitFits read.readyAt_eq.symm

/-- Nobody else's vote is found for a voter, and the voter had none before. -/
theorem vote_read {index support now : Number} {voter : Account} {weight total : Int}
    {next : Text}
    (done : Ballots.castAt params record index voter support weight now total = .ok next) :
    ∃ (place : Nat) (vote : Vote), index = (place : Number) ∧ vote.voter = voter ∧
      support = (vote.support.code : Number) ∧ weight = vote.weight ∧
      Ballots.find? next place voter = some vote ∧ Ballots.hasVoted next place voter = true := by
  rcases Ballots.castAt_eq_ok done with
    ⟨place, choice, amount, rfl, -, choiceEq, rfl, counted⟩
  rcases holds.exists_motion counted with ⟨motion, found⟩
  rcases holds.voted found counted with ⟨room, size, fresh, fits, nextHolds⟩
  -- The list is searched from its first vote, and the new one is the last.
  have others : motion.votes.find? (fun vote => vote.voter == voter) = none := by
    refine List.find?_eq_none.mpr fun vote member same => fresh ?_
    exact List.mem_map.mpr ⟨vote, member, beq_iff_eq.mp same⟩
  have read : Ballots.find? next place voter =
      some { voter, support := choice, weight := amount } := by
    rw [Ballots.find?, nextHolds.voteList_eq (getElem?_set_same found _), Motion.withVote,
      List.find?_append, others, Option.none_or, List.find?_singleton, if_pos BEq.rfl]
  refine ⟨place, _, rfl, rfl, VoteSupport.ofNumber?_eq_some choiceEq, rfl, read, ?_⟩
  rw [Ballots.hasVoted, read, Option.isSome_some]

end Represents

/-! ## Runs -/

/-- On every record of a run, what any call then writes is read back. -/
theorem Seeded.reads_back (params later : Params) {start : Text} (seeded : Seeded start)
    (moves : List Move) : Record.ReadsBack later (recordAfter params start moves) := by
  rcases seeded.run_represented params moves with ⟨ledger, holds, coherent⟩
  constructor
  case proposal => exact fun _ _ _ _ _ => holds.proposed_read
  case operation => exact fun _ _ _ _ _ => holds.scheduled_read coherent
  case vote => exact fun _ _ _ _ _ _ _ => holds.vote_read
  case delegation => exact fun _ _ _ => Delegations.readDelegate_of_delegate
  case snapshot => exact fun _ _ _ => Delegations.readSnapshot_of_snapshot
  case intent => exact fun _ _ _ _ => Intents.read?_of_submit

namespace Sample

/-- The record behind the vote of Alice, while Bob can still vote. -/
def halfVoted : Text :=
  recordAfter params start (moves.take 3)

/-- Every kind of call has a result there. -/
theorem halfVoted_reads_back :
    Record.ReadsBack params halfVoted ∧
      (Proposals.propose params halfVoted bob 9 106 100).isOk = true ∧
      (Operations.schedule params halfVoted 7 106 20 (some 8)).isOk = true ∧
      (Ballots.castAt params halfVoted 0 bob 2 maxU64 106 400).isOk = true ∧
      (Delegations.delegate params halfVoted alice bob).isOk = true ∧
      (Delegations.delegate params halfVoted alice alice).isOk = true ∧
      (Delegations.snapshot params halfVoted id alice).isOk = true ∧
      (Intents.submit params halfVoted id 2 bob).isOk = true :=
  ⟨seeded.reads_back params params (moves.take 3), by decide +kernel⟩

end Sample

end LedgerGovernance
