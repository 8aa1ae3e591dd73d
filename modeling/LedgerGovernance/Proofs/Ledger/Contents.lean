import LedgerGovernance.Ledger.Ballots
import LedgerGovernance.Ledger.Intents
import LedgerGovernance.Ledger.Operations
import LedgerGovernance.Proofs.Number
import LedgerGovernance.Proofs.Record.Keys
import Mathlib.Algebra.Order.BigOperators.Group.List
import Mathlib.Algebra.Order.Ring.Nat

/-! What a record stands for: members with their seats, proposals with the votes on
them, scheduled operations, delegations, snapshots, intents and the lock. A ledger of
these determines what a record has under every key. The tallies of a proposal are no
data of their own here; they are sums over its votes. -/

namespace LedgerGovernance

/-! ## Members -/

/-- A member at whatever index. -/
structure Seat where
  account : Account
  votingPower : Nat
  roles : Nat
  account_size : account.length = Account.size
  votingPower_le : votingPower ≤ maxU64
  roles_le : roles ≤ maxU8

namespace Seat

def member (seat : Seat) (index : Nat) : Member where
  index
  account := seat.account
  votingPower := seat.votingPower
  roles := seat.roles

def text (seat : Seat) : Text :=
  Members.entryText (Text.hex seat.account) seat.votingPower seat.roles

end Seat

/-! ## Votes -/

namespace Vote

def text (vote : Vote) : Text :=
  Ballots.entryText (Text.hex vote.voter) vote.support vote.weight

/-- The weight of all votes with one support. -/
def tally (support : VoteSupport) (votes : List Vote) : Nat :=
  ((votes.filter fun vote => vote.support = support).map Vote.weight).sum

@[simp] theorem tally_nil (support : VoteSupport) : tally support [] = 0 := rfl

theorem tally_append (support : VoteSupport) (first second : List Vote) :
    tally support (first ++ second) = tally support first + tally support second := by
  simp [tally]

theorem tally_singleton (support : VoteSupport) (vote : Vote) :
    tally support [vote] = if vote.support = support then vote.weight else 0 := by
  by_cases same : vote.support = support <;> simp [tally, same]

/-- Every vote counts towards one of the three tallies. -/
theorem sum_tallies (votes : List Vote) :
    tally .inFavor votes + tally .against votes + tally .abstain votes =
      (votes.map Vote.weight).sum := by
  induction votes with
  | nil => rfl
  | cons vote votes induction =>
      have cons (support : VoteSupport) : tally support (vote :: votes) =
          (if vote.support = support then vote.weight else 0) + tally support votes := by
        rw [← tally_singleton, ← tally_append, List.singleton_append]
      rw [List.map_cons, List.sum_cons, ← induction, cons, cons, cons]
      cases vote.support <;> simp only [if_true, reduceCtorEq, if_false] <;> omega

/-- No vote weighs more than the tally that it counts towards. -/
theorem weight_le_tally {vote : Vote} {votes : List Vote} (member : vote ∈ votes) :
    vote.weight ≤ tally vote.support votes := by
  apply List.le_sum_of_mem
  exact List.mem_map_of_mem (List.mem_filter.mpr ⟨member, by simp⟩)

end Vote

/-! ## Proposals -/

/-- A proposal with the votes on it, in the order in which they were counted. -/
structure Motion where
  id : Nat
  proposer : Account
  voteStart : Nat
  voteEnd : Nat
  state : ProposalState
  description : Nat
  votes : List Vote
  id_le : id ≤ maxU32
  proposer_size : proposer.length = Account.size
  voteStart_le : voteStart ≤ maxU32
  voteEnd_le : voteEnd ≤ maxU32
  description_le : description ≤ maxU32
  window : voteStart ≤ voteEnd
  votes_le : votes.length ≤ Ballots.slots
  voter_size : ∀ vote ∈ votes, vote.voter.length = Account.size
  voters_nodup : (votes.map Vote.voter).Nodup
  tally_le : ∀ support, Vote.tally support votes ≤ maxU64

namespace Motion

def value (motion : Motion) : ProposalField → Text
  | .id => Text.decimal motion.id
  | .proposer => Text.hex motion.proposer
  | .state => Text.decimal motion.state.code
  | .voteStart => Text.decimal motion.voteStart
  | .voteEnd => Text.decimal motion.voteEnd
  | .inFavor => Text.decimal (Vote.tally .inFavor motion.votes)
  | .against => Text.decimal (Vote.tally .against motion.votes)
  | .abstain => Text.decimal (Vote.tally .abstain motion.votes)
  | .description => Text.decimal motion.description

theorem value_tallyField (motion : Motion) (support : VoteSupport) :
    motion.value (Ballots.tallyField support) =
      Text.decimal (Vote.tally support motion.votes) := by
  cases support <;> rfl

end Motion

/-! ## Timelock operations -/

structure Booking where
  id : Nat
  proposalId : Nat
  readyAt : Nat
  state : OperationState
  predecessor : Option Nat
  id_le : id ≤ maxU32
  proposalId_le : proposalId ≤ maxU32
  readyAt_le : readyAt ≤ maxU32
  predecessor_le : ∀ id ∈ predecessor, id ≤ maxU32

namespace Booking

def value (booking : Booking) : OperationField → Option Text
  | .id => some (Text.decimal booking.id)
  | .proposal => some (Text.decimal booking.proposalId)
  | .ready => some (Text.decimal booking.readyAt)
  | .state => some (Text.decimal booking.state.code)
  | .predecessor => booking.predecessor.map Text.decimal

end Booking

/-! ## The whole ledger -/

structure Ledger where
  seats : List Seat
  motions : List Motion
  bookings : List Booking
  delegate : Account → Option Account
  snapshot : Nat → Account → Option Nat
  intent : Nat → Account → Option VoteSupport
  lock : Option Bool
  seats_le : seats.length ≤ maxU8
  motions_le : motions.length ≤ maxU8
  accounts_nodup : (seats.map Seat.account).Nodup
  delegate_size : ∀ account, ∀ target ∈ delegate account, target.length = Account.size
  snapshot_le : ∀ id account, ∀ power ∈ snapshot id account, power ≤ maxU64

namespace Ledger

def empty : Ledger where
  seats := []
  motions := []
  bookings := []
  delegate _ := none
  snapshot _ _ := none
  intent _ _ := none
  lock := none
  seats_le := Nat.zero_le _
  motions_le := Nat.zero_le _
  accounts_nodup := List.nodup_nil
  delegate_size := nofun
  snapshot_le := nofun

/-- A counter that was never moved is not written. -/
def counter (count : Nat) : Option Text :=
  if count = 0 then none else some (Text.decimal count)

def lockText (locked : Bool) : Text :=
  [if locked then '1' else '0']

/-- What stands under each key. -/
def contents (ledger : Ledger) : Key → Option Text
  | .memberCount => counter ledger.seats.length
  | .proposalCount => counter ledger.motions.length
  | .operationCount => counter ledger.bookings.length
  | .lock => ledger.lock.map lockText
  | .member index => ledger.seats[index]?.map Seat.text
  | .proposal index field => ledger.motions[index]?.map fun motion => motion.value field
  | .vote voted index =>
      ledger.motions[voted]?.bind fun motion => motion.votes[index]?.map Vote.text
  | .operation index field => ledger.bookings[index]?.bind fun booking => booking.value field
  | .delegate account => (ledger.delegate account).map Text.hex
  | .snapshot proposalId account => (ledger.snapshot proposalId account).map Text.decimal
  | .intent proposalId account =>
      (ledger.intent proposalId account).map fun support => Text.decimal support.code

end Ledger

/-- A record represents a ledger if it has under each key what the ledger holds. -/
def Represents (record : Text) (ledger : Ledger) : Prop :=
  Record.read? record = ledger.contents

theorem represents_empty : Represents [] Ledger.empty := by
  funext key
  have nothing : Record.read? [] key = none := rfl
  cases key <;> simp [nothing, Ledger.empty, Ledger.contents, Ledger.counter]

end LedgerGovernance
