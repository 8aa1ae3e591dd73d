import LedgerGovernance.Proofs.Voting.Ballots
import LedgerGovernance.Proofs.Voting.Delegations
import Mathlib.Algebra.BigOperators.Group.Finset.Piecewise
import Mathlib.Algebra.Order.BigOperators.Group.List

/-! How often the power of a member counts on one proposal. A vote counts the caller's
effective votes of that moment, and an account votes once. So power that has counted counts
again in one way only: its owner delegates after it has counted, and the new delegate votes
while that delegation stands. Where nobody with power does so, at most the total power is
counted on a proposal. -/

namespace LedgerGovernance

/-! ## Power that counts -/

/-- At a step of a run the power of an account counts on the proposal at an index: the
account's delegate of that moment votes. -/
def CountsAt (params : Params) (start : Text) (moves : List Move) (index step : Nat)
    (account : Account) : Prop :=
  VotesAt params start moves index step
    (Delegations.delegateOf (recordAfter params start (moves.take step)) account)

/-- All power that was counted on a proposal. -/
def Ballots.castPower (record : Text) (index : Nat) : Nat :=
  let tallies := tallies record index
  tallies.forVotes + tallies.againstVotes + tallies.abstainVotes

theorem Represents.castPower_eq {record : Text} {ledger : Ledger}
    (holds : Represents record ledger) {index : Nat} {motion : Motion}
    (found : ledger.motions[index]? = some motion) :
    Ballots.castPower record index = (motion.votes.map Vote.weight).sum := by
  rw [← Vote.sum_tallies, ← holds.amount_eq found, ← holds.amount_eq found,
    ← holds.amount_eq found]
  rfl

/-- During a run no member is added, and no power is changed. -/
def SteadyMembers (params : Params) (start : Text) (moves : List Move) : Prop :=
  ∀ count ≤ moves.length,
    Members.powers (recordAfter params start (moves.take count)) = Members.powers start

/-- How often the power of an account counts on a proposal during a run. -/
noncomputable def timesCounted (params : Params) (start : Text) (moves : List Move) (index : Nat)
    (account : Account) : Nat :=
  open Classical in
  ((Finset.range moves.length).filter fun step =>
    CountsAt params start moves index step account).card

section

variable {params : Params} {start : Text} {moves : List Move} {last : Move} {index : Nat}

theorem CountsAt.append_singleton_iff {step : Nat} {account : Account} :
    CountsAt params start (moves ++ [last]) index step account ↔
      CountsAt params start moves index step account ∨
        step = moves.length ∧
          last.caller = Delegations.delegateOf (recordAfter params start moves) account ∧
          last.VotesOn params (recordAfter params start moves) index := by
  rw [CountsAt, CountsAt, VotesAt.append_singleton_iff]
  by_cases before : step < moves.length
  · have apart : step ≠ moves.length := Nat.ne_of_lt before
    rw [List.take_append_of_le_length (Nat.le_of_lt before)]
    simp only [apart, false_and]
  · have none (voter : Account) : ¬ VotesAt params start moves index step voter :=
      fun votes => before votes.lt_length
    by_cases here : step = moves.length
    · subst here
      simp only [none, List.take_left, false_or]
    · simp only [none, here, false_and]

theorem SteadyMembers.of_append_singleton (steady : SteadyMembers params start (moves ++ [last])) :
    SteadyMembers params start moves := by
  intro count inside
  have same := steady count (by rw [List.length_append]; omega)
  rwa [List.take_append_of_le_length inside] at same

theorem SteadyMembers.powers_eq (steady : SteadyMembers params start moves) :
    Members.powers (recordAfter params start moves) = Members.powers start := by
  have same := steady moves.length (Nat.le_refl _)
  rwa [List.take_length] at same

open Classical in
theorem timesCounted_append_singleton (account : Account) :
    timesCounted params start (moves ++ [last]) index account =
      timesCounted params start moves index account +
        if last.VotesOn params (recordAfter params start moves) index ∧
          Delegations.delegateOf (recordAfter params start moves) account = last.caller
        then 1 else 0 := by
  have earlier : ∀ step ∈ Finset.range moves.length,
      CountsAt params start (moves ++ [last]) index step account ↔
        CountsAt params start moves index step account := by
    intro step inside
    have apart : step ≠ moves.length := Nat.ne_of_lt (Finset.mem_range.mp inside)
    simp only [CountsAt.append_singleton_iff, apart, false_and, or_false]
  have now : CountsAt params start (moves ++ [last]) index moves.length account ↔
      last.VotesOn params (recordAfter params start moves) index ∧
        Delegations.delegateOf (recordAfter params start moves) account = last.caller := by
    have never : ¬ CountsAt params start moves index moves.length account :=
      fun counts => absurd counts.lt_length (Nat.lt_irrefl _)
    simp only [CountsAt.append_singleton_iff, never, false_or, true_and]
    exact and_comm.trans (and_congr_right' eq_comm)
  rw [timesCounted, timesCounted, List.length_append, List.length_singleton, Finset.card_filter,
    Finset.sum_range_succ, Finset.card_filter]
  simp only [now]
  congr 1
  exact Finset.sum_congr rfl fun step inside => by simp only [earlier step inside]

theorem timesCounted_le_one_iff {account : Account} :
    timesCounted params start moves index account ≤ 1 ↔
      ∀ first second, CountsAt params start moves index first account →
        CountsAt params start moves index second account → first = second := by
  simp only [timesCounted, Finset.card_le_one, Finset.mem_filter, Finset.mem_range]
  constructor
  · intro once first second firstCounts secondCounts
    exact once first ⟨firstCounts.lt_length, firstCounts⟩ second
      ⟨secondCounts.lt_length, secondCounts⟩
  · intro once first firstCounts second secondCounts
    exact once first second firstCounts.2 secondCounts.2

end

namespace Unvoted

variable {params : Params} {start : Text} {index : Nat} {ledger : Ledger} {motion : Motion}
  (unvoted : Unvoted start index ledger motion)

include unvoted

/-- A vote on a proposal adds the caller's effective votes of that moment. -/
theorem castPower_of_votes {moves : List Move} {last : Move}
    (votesOn : last.VotesOn params (recordAfter params start moves) index) :
    Ballots.castPower (recordAfter params start (moves ++ [last])) index =
      Ballots.castPower (recordAfter params start moves) index +
        Delegations.effectiveVotes (recordAfter params start moves) last.caller := by
  rcases unvoted.polled params moves with ⟨before, holds, coherent, motion, found, -⟩
  have succeeds := votesOn.1
  rcases succeeds with ⟨receipt, done⟩
  rcases holds.apply coherent done with ⟨after, afterHolds, step⟩
  rw [recordAfter_append_singleton, Move.next, done, holds.castPower_eq found,
    holds.effectiveVotes_eq]
  rcases step.votes_cases found with
    ⟨next, nextFound, ⟨-, unvoting⟩ | ⟨-, vote, -, weight, -, grown⟩⟩
  · exact absurd ((holds.votesOn_iff done).mp votesOn) unvoting
  · rw [afterHolds.castPower_eq nextFound, grown, ← weight, List.map_append, List.sum_append,
      List.map_singleton, List.sum_singleton]

/-- Nothing but a vote on a proposal changes what has been counted on it. -/
theorem castPower_of_not_votes {moves : List Move} {last : Move}
    (other : ¬ last.VotesOn params (recordAfter params start moves) index) :
    Ballots.castPower (recordAfter params start (moves ++ [last])) index =
      Ballots.castPower (recordAfter params start moves) index := by
  rcases unvoted.polled params moves with ⟨before, holds, coherent, motion, found, -⟩
  rw [recordAfter_append_singleton, Move.next]
  cases done : last.outcome params (recordAfter params start moves) with
  | error fault => rfl
  | ok receipt =>
      rcases holds.apply coherent done with ⟨after, afterHolds, step⟩
      rcases step.votes_cases found with ⟨next, nextFound, ⟨same, -⟩ | ⟨votesOn, -⟩⟩
      · rw [holds.castPower_eq found, ← same]
        exact afterHolds.castPower_eq nextFound
      · exact absurd ((holds.votesOn_iff done).mpr votesOn) other

/-- Everything that was counted on a proposal is the power of members, taken as often as it
has counted. -/
theorem castPower_eq (fits : ((Members.list start).map Member.votingPower).sum ≤ maxU64)
    (moves : List Move) (steady : SteadyMembers params start moves) :
    Ballots.castPower (recordAfter params start moves) index =
      ((Members.list start).map fun member =>
        member.votingPower * timesCounted params start moves index member.account).sum := by
  induction moves using List.reverseRec with
  | nil =>
      rw [recordAfter, List.foldl_nil, unvoted.represents.castPower_eq unvoted.found,
        unvoted.unvoted]
      simp [timesCounted]
  | append_singleton moves last induction =>
      have before := induction steady.of_append_singleton
      by_cases votesOn : last.VotesOn params (recordAfter params start moves) index
      · rcases unvoted.polled params moves with ⟨ledger, holds, -⟩
        have weight : Delegations.effectiveVotes (recordAfter params start moves) last.caller =
            Members.powerWhere (Members.list start) (fun account =>
              Delegations.delegateOf (recordAfter params start moves) account =
                last.caller) := by
          rw [Delegations.effectiveVotes_eq_min holds.accounts_nodup,
            Members.powerWhere_eq_of_powers_eq steady.of_append_singleton.powers_eq]
          exact Nat.min_eq_left (Nat.le_trans (Members.powerWhere_le _ _) fits)
        rw [unvoted.castPower_of_votes votesOn, before, weight, Members.powerWhere,
          ← List.sum_map_add]
        simp only [timesCounted_append_singleton, votesOn, true_and, Nat.mul_add, mul_ite,
          Nat.mul_one, Nat.mul_zero]
      · rw [unvoted.castPower_of_not_votes votesOn, before]
        simp only [timesCounted_append_singleton, votesOn, false_and, if_false, Nat.add_zero]

end Unvoted

/-! ## Power that is passed on -/

/-- An account that has counted on a proposal delegates to a target, which votes on the
proposal while that delegation stands. -/
structure PassesOnAt (params : Params) (start : Text) (moves : List Move) (index : Nat)
    (account : Account) (counted delegated voted : Nat) (target : Account) : Prop where
  counts : CountsAt params start moves index counted account
  counted_lt : counted < delegated
  delegates : DelegatesAt params start moves delegated account target
  delegated_lt : delegated < voted
  votes : VotesAt params start moves index voted target
  stands : ∀ between, delegated < between → between < voted →
    ∀ other, ¬ DelegatesAt params start moves between account other

def PassesOn (params : Params) (start : Text) (moves : List Move) (index : Nat)
    (account : Account) : Prop :=
  ∃ counted delegated voted target,
    PassesOnAt params start moves index account counted delegated voted target

namespace Unvoted

variable {params : Params} {start : Text} {index : Nat} {ledger : Ledger} {motion : Motion}
  (unvoted : Unvoted start index ledger motion) {moves : List Move} {account : Account}

include unvoted

/-- Whoever passes its power on counts once more, under its new delegate. -/
theorem counts_of_passesOnAt {counted delegated voted : Nat} {target : Account}
    (passes : PassesOnAt params start moves index account counted delegated voted target) :
    CountsAt params start moves index voted account := by
  have delegate := unvoted.represents.delegateOf_succ_of_delegates unvoted.coherent
    passes.delegates
  have stands := unvoted.represents.delegateOf_stands unvoted.coherent passes.delegated_lt
    passes.stands
  rw [CountsAt, stands, delegate]
  exact passes.votes

/-- Nobody counts twice under one delegate, as that one votes once. -/
theorem passesOn_of_counts {first second : Nat} (before : first < second)
    (firstCounts : CountsAt params start moves index first account)
    (secondCounts : CountsAt params start moves index second account) :
    PassesOn params start moves index account := by
  have changed : Delegations.delegateOf (recordAfter params start (moves.take second)) account ≠
      Delegations.delegateOf (recordAfter params start (moves.take first)) account := by
    intro same
    rw [CountsAt, same] at secondCounts
    exact Nat.ne_of_lt before (unvoted.votes_once firstCounts secondCounts)
  rcases unvoted.represents.exists_delegates unvoted.coherent (Nat.le_of_lt before) changed with
    ⟨step, after, ahead, delegates, stands⟩
  refine ⟨first, step, second, _, firstCounts, ?_, delegates, ahead, secondCounts, stands⟩
  -- The first step is a vote, so it is not the one that delegates.
  rcases Nat.eq_or_lt_of_le after with rfl | later
  · rcases firstCounts with ⟨move, standing, -, -, id, support, votes, -⟩
    rcases delegates with ⟨other, ⟨otherStanding, -⟩, -, delegates⟩
    rw [standing] at otherStanding
    rw [← Option.some.inj otherStanding, votes] at delegates
    cases delegates
  · exact later

theorem timesCounted_le_one_iff_not_passesOn :
    timesCounted params start moves index account ≤ 1 ↔
      ¬ PassesOn params start moves index account := by
  rw [timesCounted_le_one_iff]
  constructor
  · rintro once ⟨counted, delegated, voted, target, passes⟩
    have same := once counted voted passes.counts (unvoted.counts_of_passesOnAt passes)
    have apart := Nat.lt_trans passes.counted_lt passes.delegated_lt
    omega
  · intro keeps first second firstCounts secondCounts
    rcases Nat.lt_trichotomy first second with before | same | after
    · exact absurd (unvoted.passesOn_of_counts before firstCounts secondCounts) keeps
    · exact same
    · exact absurd (unvoted.passesOn_of_counts after secondCounts firstCounts) keeps

end Unvoted

/-! ## From the creation of a proposal on -/

/-- A move creates the proposal at an index. -/
structure Creates (params : Params) (record : Text) (move : Move) (index : Nat)
    (created : Text) : Prop where
  proposes : ∃ description, move.action = .propose description
  index_eq : Proposals.count record = index
  done : ∃ receipt, move.outcome params record = .ok receipt ∧ receipt.record = created

theorem Creates.unvoted {params : Params} {start created : Text} (seeded : Seeded start)
    {earlier : List Move} {move : Move} {index : Nat}
    (creates : Creates params (recordAfter params start earlier) move index created) :
    ∃ ledger motion, Unvoted created index ledger motion := by
  rcases creates with ⟨⟨description, proposes⟩, rfl, receipt, done, rfl⟩
  rcases seeded.run_represented params earlier with ⟨ledger, holds, coherent⟩
  rcases holds.apply coherent done with ⟨after, afterHolds, step⟩
  have afterCoherent := step.coherent coherent
  rw [proposes] at step
  rw [holds.proposalCount_eq]
  cases step with
  | entered appoints => cases appoints
  | @proposed _ motion room _ unvoted =>
      exact ⟨_, motion, afterHolds, afterCoherent, List.getElem?_concat_length .., unvoted⟩

/-- What is counted on a proposal is the power of members, taken as often as it has counted.
The power of an account counts more than once exactly if the account passes it on, and where
no member with power does so, at most the total power is counted. -/
theorem counted_power_le_total {params : Params} {start created : Text} (seeded : Seeded start)
    {earlier later : List Move} {move : Move} {index : Nat}
    (creates : Creates params (recordAfter params start earlier) move index created)
    (steady : SteadyMembers params created later)
    (fits : ((Members.list created).map Member.votingPower).sum ≤ maxU64) :
    Ballots.castPower (recordAfter params created later) index =
        ((Members.list created).map fun member =>
          member.votingPower * timesCounted params created later index member.account).sum ∧
      (∀ account, timesCounted params created later index account ≤ 1 ↔
        ¬ PassesOn params created later index account) ∧
      ((∀ member ∈ Members.list created, 0 < member.votingPower →
          ¬ PassesOn params created later index member.account) →
        Ballots.castPower (recordAfter params created later) index ≤
          Members.totalPower (recordAfter params created later)) := by
  rcases creates.unvoted seeded with ⟨ledger, motion, unvoted⟩
  have counted := unvoted.castPower_eq fits later steady
  refine ⟨counted, fun _ => unvoted.timesCounted_le_one_iff_not_passesOn, fun keep => ?_⟩
  have total : Members.totalPower (recordAfter params created later) =
      ((Members.list created).map Member.votingPower).sum := by
    rw [Members.totalPower_eq_min, ← Members.map_snd_powers, steady.powers_eq,
      Members.map_snd_powers, Nat.min_eq_left fits]
  rw [counted, total]
  apply List.sum_le_sum
  intro member listed
  rcases Nat.eq_zero_or_pos member.votingPower with powerless | powerful
  · rw [powerless, Nat.zero_mul]
  · have once := unvoted.timesCounted_le_one_iff_not_passesOn.mpr (keep member listed powerful)
    exact (Nat.mul_le_mul_left _ once).trans_eq (Nat.mul_one _)

/-! ## Delegating after voting -/

namespace Sample

def proposing : Move := { caller := alice, now := 100, action := .propose (some 7) }

/-- The record of Alice and Bob, with a proposal of Alice. -/
def created : Text := recordAfter params start (moves.take 2)

theorem creates :
    Creates params (recordAfter params start (moves.take 1)) proposing 0 created := by
  refine ⟨⟨_, rfl⟩, by decide +kernel, ?_⟩
  have succeeds : (proposing.outcome params
      (recordAfter params start (moves.take 1))).isOk = true := by decide +kernel
  rcases Outcome.exists_of_isOk succeeds with ⟨receipt, done⟩
  refine ⟨receipt, done, ?_⟩
  have next : recordAfter params start (moves.take 1 ++ [proposing]) = receipt.record := by
    rw [recordAfter_append_singleton, Move.next, done]
  exact next.symm

def stranger : Account := List.replicate Account.size 9

/-- Alice votes, then delegates to somebody who does not vote. -/
def delegatingAway : List Move := [
  { caller := alice, now := 105, action := .castVote id 1 },
  { caller := alice, now := 106, action := .delegate stranger },
  { caller := bob, now := 107, action := .castVote id 1 }]

theorem nobody_passesOn (account : Account) :
    ¬ PassesOn params created delegatingAway 0 account := by
  rintro ⟨counted, delegated, voted, target, passes⟩
  have inside : voted < 3 := passes.votes.lt_length
  have counted_lt := passes.counted_lt
  have delegated_lt := passes.delegated_lt
  have second : delegated = 1 := by omega
  have third : voted = 2 := by omega
  subst second third
  rcases passes.delegates with ⟨_, ⟨standing, -⟩, -, delegates⟩
  cases standing
  cases delegates
  rcases passes.votes with ⟨_, standing, caller, -⟩
  cases standing
  exact absurd caller (by decide)

/-- Alice votes, then delegates to Bob, who votes with her power once more. -/
def delegatingLater : List Move := [
  { caller := alice, now := 105, action := .castVote id 1 },
  { caller := alice, now := 106, action := .delegate bob },
  { caller := bob, now := 107, action := .castVote id 1 }]

end Sample

theorem sample_counted_power_le :
    (∀ account,
      timesCounted Sample.params Sample.created Sample.delegatingAway 0 account ≤ 1) ∧
      Ballots.castPower (recordAfter Sample.params Sample.created Sample.delegatingAway) 0 ≤
        Members.totalPower (recordAfter Sample.params Sample.created Sample.delegatingAway) := by
  have steady : SteadyMembers Sample.params Sample.created Sample.delegatingAway := by
    unfold SteadyMembers
    decide +kernel
  rcases counted_power_le_total Sample.seeded Sample.creates steady (by decide +kernel) with
    ⟨-, once, bounded⟩
  exact ⟨fun account => (once account).mpr (Sample.nobody_passesOn account),
    bounded fun member _ _ => Sample.nobody_passesOn member.account⟩

/-- Without a word on delegations the bound fails: Alice's power counts with her own vote
and with Bob's. -/
theorem delegating_after_voting_counts_twice :
    Seeded Sample.start ∧
      Creates Sample.params (recordAfter Sample.params Sample.start (Sample.moves.take 1))
        Sample.proposing 0 Sample.created ∧
      SteadyMembers Sample.params Sample.created Sample.delegatingLater ∧
      ((Members.list Sample.created).map Member.votingPower).sum ≤ maxU64 ∧
      Members.totalPower (recordAfter Sample.params Sample.created Sample.delegatingLater) <
        Ballots.castPower
          (recordAfter Sample.params Sample.created Sample.delegatingLater) 0 := by
  refine ⟨Sample.seeded, Sample.creates, ?_, by decide +kernel, by decide +kernel⟩
  unfold SteadyMembers
  decide +kernel

end LedgerGovernance
