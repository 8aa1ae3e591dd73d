import LedgerGovernance.Proofs.Runs

/-! Tallies and votes are two accounts of the same thing. The tallies are what a
proposal's outcome is read from, and the listed votes are what keeps an account from
voting twice; a run of actions never lets them drift apart. -/

namespace LedgerGovernance

namespace Ballots

/-- The stored tallies of a proposal are the sums over its listed votes, every stored
vote is listed, and nobody is listed twice. -/
structure Consistent (record : Text) (index : Nat) : Prop where
  tally_stored : ∀ support, Proposals.field? record index (tallyField support) =
    some (Text.decimal (Vote.tally support (list record index)))
  tally_read : ∀ support, Proposals.amount record index (tallyField support) =
    Vote.tally support (list record index)
  tally_le : ∀ support, Vote.tally support (list record index) ≤ maxU64
  decodes : ∀ vote < count record index,
    (written? record index vote).bind parse? = (list record index)[vote]?
  length_eq : (list record index).length = count record index
  complete : ∀ vote, (written? record index vote).isSome → vote < count record index
  voters_nodup : ((list record index).map Vote.voter).Nodup

end Ballots

theorem Represents.ballots_consistent {record : Text} {ledger : Ledger}
    (holds : Represents record ledger) {index : Nat} {motion : Motion}
    (found : ledger.motions[index]? = some motion) : Ballots.Consistent record index := by
  have votes := holds.voteList_eq found
  constructor
  case tally_stored =>
    intro support
    rw [holds.proposalText_eq found, Motion.value_tallyField, votes]
  case tally_read =>
    intro support
    rw [holds.amount_eq found, votes]
  case tally_le =>
    intro support
    rw [votes]
    exact motion.tally_le support
  case decodes =>
    intro vote _
    rw [holds.parsedVote?_eq found, votes]
  case length_eq => rw [votes, holds.voteCount_eq found]
  case complete =>
    intro vote stored
    rw [holds.writtenVote?_eq found, Option.isSome_map] at stored
    rw [holds.voteCount_eq found]
    exact (List.getElem?_eq_some_iff.mp (Option.eq_some_of_isSome stored)).1
  case voters_nodup =>
    rw [votes]
    exact motion.voters_nodup

/-- The votes on every proposal are accounted for after every run. -/
theorem tallies_match_listed_votes {params : Params} {start : Text} (seeded : Seeded start)
    (moves : List Move) {index : Nat}
    (inside : index < Proposals.count (recordAfter params start moves)) :
    Ballots.Consistent (recordAfter params start moves) index := by
  rcases seeded.run_represented params moves with ⟨ledger, holds, -⟩
  rw [holds.proposalCount_eq] at inside
  exact holds.ballots_consistent (List.getElem?_eq_getElem inside)

theorem sample_tallies_match :
    Ballots.Consistent (recordAfter Sample.params Sample.start Sample.moves) 0 :=
  tallies_match_listed_votes Sample.seeded Sample.moves (by decide +kernel)

end LedgerGovernance
