import LedgerGovernance.Ledger.Ballots
import LedgerGovernance.Proofs.Ledger.Power

/-! How a finished vote is decided. The rule is written down twice: once where the state of a
proposal is derived, and once where its votes are counted. Both are one comparison of whole
numbers, on any text at all, although sums and products are cut off at 64 bits and a hundred
is divided out first. So more votes for a proposal, fewer against it, or less power in total
never turn a success into a defeat. -/

namespace LedgerGovernance

theorem Number.not_le_of_lt {low high : Number} (less : low < high) : ¬ high ≤ low := by
  intro le
  have below : low.lt high = true := less
  have above : high.le low = true := le
  cases low <;> cases high <;> simp [Number.lt, Number.le] at below above
  case finite.finite => exact Rat.not_lt.mpr above below
  case infinite.infinite => simp [below] at above
  case finite.infinite | infinite.finite => simp [below] at above

/-- A sum that is cut off reaches what the sum itself reaches, as long as that fits. -/
theorem Amount.le_saturatingAdd_iff {bound left right : Int} (fits : bound ≤ maxU64) :
    bound ≤ saturatingAdd left right ↔ bound ≤ left + right := by
  unfold saturatingAdd
  split <;> omega

/-! ## The quorum -/

namespace Members

theorem quorum_le (params : Params) {total : Nat} (fits : total ≤ maxU64) :
    quorum params (total : Int) ≤ total := by
  rw [quorum_natCast params fits]
  have part : total / 100 * params.quorumPercentage ≤ total / 100 * 100 :=
    Nat.mul_le_mul_left _ params.quorumPercentage_le
  exact Int.ofNat_le.mpr (Nat.le_trans part (Nat.div_mul_le_self total 100))

end Members

/-! ## Tallies that carry -/

namespace Tallies

/-- The votes for and the abstentions are the percentage of each full hundred of the total
power, and the votes for exceed the votes against. -/
structure Carry (params : Params) (total : Nat) (tallies : Tallies) : Prop where
  quorum : total / 100 * params.quorumPercentage ≤ tallies.forVotes + tallies.abstainVotes
  majority : tallies.againstVotes < tallies.forVotes

/-- At least as much speaks for a proposal, and no more against it. -/
structure AtLeast (better worse : Tallies) : Prop where
  forVotes : worse.forVotes ≤ better.forVotes
  abstainVotes : worse.abstainVotes ≤ better.abstainVotes
  againstVotes : better.againstVotes ≤ worse.againstVotes

theorem Carry.mono {params : Params} {total less : Nat} {better worse : Tallies}
    (carry : worse.Carry params total) (atLeast : better.AtLeast worse) (le : less ≤ total) :
    better.Carry params less where
  quorum := by
    have hundreds : less / 100 * params.quorumPercentage ≤
        total / 100 * params.quorumPercentage :=
      Nat.mul_le_mul_right _ (Nat.div_le_div_right le)
    have votes := Nat.add_le_add atLeast.forVotes atLeast.abstainVotes
    exact Nat.le_trans hundreds (Nat.le_trans carry.quorum votes)
  majority := Nat.lt_of_le_of_lt atLeast.againstVotes
    (Nat.lt_of_lt_of_le carry.majority atLeast.forVotes)

end Tallies

namespace Ballots

theorem carried_iff (params : Params) (record : Text) (index : Nat) {total : Nat}
    (fits : total ≤ maxU64) :
    quorumReached params record index (total : Int) = true ∧ succeeded record index = true ↔
      (tallies record index).Carry params total := by
  have low : Members.quorum params (total : Int) ≤ maxU64 :=
    Int.le_trans (Members.quorum_le params fits) (Int.ofNat_le.mpr fits)
  rw [quorumReached, succeeded, decide_eq_true_iff, decide_eq_true_iff,
    Amount.le_saturatingAdd_iff low, Members.quorum_natCast params fits, ← Int.natCast_add,
    Int.ofNat_le]
  exact ⟨fun ⟨quorum, majority⟩ => ⟨quorum, majority⟩,
    fun carry => ⟨carry.quorum, carry.majority⟩⟩

end Ballots

/-! ## Finished votes -/

namespace Proposals

/-- A proposal whose vote is over, and for which no state is stored that would come before
the one that is derived. -/
structure Finished (record : Text) (index : Nat) (now : Number) : Prop where
  idle : (storedState record index).isExplicit = false
  begun : ¬ now < (word record index .voteStart : Number)
  ended : (word record index .voteEnd : Number) < now

variable {record : Text} {index : Nat} {now : Number}

theorem Finished.state_eq (finished : Finished record index now) (params : Params)
    (total : Int) :
    state params record index now total =
      if Ballots.quorumReached params record index total ∧ Ballots.succeeded record index then
        .succeeded
      else .defeated := by
  unfold state
  dsimp only
  rw [if_neg (by simp [finished.idle]), if_neg finished.begun,
    if_neg (Number.not_le_of_lt finished.ended)]
  -- Here the quorum is missed or the majority is asked for; there both are asked for at once.
  by_cases reached : Ballots.quorumReached params record index total = true
  · have enough : Members.quorum params total ≤ Amount.saturatingAdd
        (amount record index .inFavor) (amount record index .abstain) :=
      of_decide_eq_true reached
    have majority : Ballots.succeeded record index = true ↔
        amount record index .against < amount record index .inFavor := decide_eq_true_iff
    rw [if_neg (Int.not_lt.mpr enough)]
    simp only [reached, majority, true_and]
  · have missed : ¬ Members.quorum params total ≤ Amount.saturatingAdd
        (amount record index .inFavor) (amount record index .abstain) :=
      fun le => reached (decide_eq_true le)
    rw [if_pos (Int.not_le.mp missed), if_neg fun both => reached both.1]

theorem Finished.succeeded_iff (finished : Finished record index now) (params : Params)
    {total : Nat} (fits : total ≤ maxU64) :
    state params record index now (total : Int) = .succeeded ↔
      (Ballots.tallies record index).Carry params total := by
  rw [finished.state_eq, ← Ballots.carried_iff params record index fits]
  split
  · rename_i carried
    exact iff_of_true rfl carried
  · rename_i failed
    exact iff_of_false nofun failed

/-- The rule for a finished vote at a total power. -/
structure Decided (params : Params) (record : Text) (index : Nat) (now : Number)
    (total : Nat) : Prop where
  state_eq : state params record index now (total : Int) =
    if Ballots.quorumReached params record index total ∧ Ballots.succeeded record index then
      .succeeded
    else .defeated
  carried_iff : Ballots.quorumReached params record index total = true ∧
      Ballots.succeeded record index = true ↔
    (Ballots.tallies record index).Carry params total
  quorum_eq : Members.quorum params (total : Int) =
    (total / 100 * params.quorumPercentage : Nat)
  quorum_le : Members.quorum params (total : Int) ≤ total
  mono : ∀ (other : Text) (place : Nat) (later : Number) (less : Nat),
    Finished other place later → less ≤ total →
      (Ballots.tallies other place).AtLeast (Ballots.tallies record index) →
        state params record index now (total : Int) = .succeeded →
          state params other place later (less : Int) = .succeeded

/-- On any record a finished vote is decided by its tallies, exactly and monotonically. -/
theorem finished_decided (params : Params) (finished : Finished record index now) {total : Nat}
    (fits : total ≤ maxU64) : Decided params record index now total where
  state_eq := finished.state_eq params total
  carried_iff := Ballots.carried_iff params record index fits
  quorum_eq := Members.quorum_natCast params fits
  quorum_le := Members.quorum_le params fits
  mono _ _ _ _ otherFinished le atLeast succeeds := by
    have carry := (finished.succeeded_iff params fits).mp succeeds
    exact (otherFinished.succeeded_iff params (Nat.le_trans le fits)).mpr (carry.mono atLeast le)

end Proposals

namespace Sample

/-- Parameters with a quorum of all power but a hundredth. -/
def exacting : Params :=
  { Params.default with quorumPercentage := 99, quorumPercentage_le := by decide }

/-- A proposal whose votes for and abstentions come to more than 64 bits, with a majority of
one. Its state is none at all. -/
def brimful : Text :=
  "prop_0_state=9;prop_0_start=5;prop_0_end=15;prop_0_for=18446744073709551615;".toList ++
    "prop_0_against=18446744073709551614;prop_0_abstain=7".toList

/-- A proposal of which little can be read: the end of its vote and the votes against it are
too large, so that both count as zero. -/
def garbled : Text :=
  "prop_3_end=4294967296;prop_3_for=18446744073709551615;".toList ++
    "prop_3_against=18446744073709551616;prop_3_abstain=00000000000000000007".toList

/-- With all power that there can be, the cut off sum reaches the quorum. What is read of the
other proposal speaks for it as much, so it has succeeded as well. -/
theorem brimful_decided :
    Proposals.Finished brimful 0 16 ∧ Proposals.Decided exacting brimful 0 16 maxU64 ∧
      Proposals.state exacting brimful 0 16 maxU64 = .succeeded ∧
      Ballots.tallies garbled 3 = ⟨maxU64, 0, 7⟩ ∧
      Proposals.state exacting garbled 3 1 maxU64 = .succeeded := by
  have finished : Proposals.Finished brimful 0 16 :=
    ⟨by decide +kernel, by decide +kernel, by decide +kernel⟩
  have garbledFinished : Proposals.Finished garbled 3 1 :=
    ⟨by decide +kernel, by decide +kernel, by decide +kernel⟩
  have counted : Ballots.tallies brimful 0 = ⟨maxU64, maxU64 - 1, 7⟩ := by decide +kernel
  have garbledCounted : Ballots.tallies garbled 3 = ⟨maxU64, 0, 7⟩ := by decide +kernel
  have decided := Proposals.finished_decided exacting finished (Nat.le_refl maxU64)
  have atLeast : (Ballots.tallies garbled 3).AtLeast (Ballots.tallies brimful 0) := by
    rw [counted, garbledCounted]
    exact ⟨Nat.le_refl _, Nat.le_refl _, Nat.zero_le _⟩
  have carry : (Ballots.tallies brimful 0).Carry exacting maxU64 := by
    rw [counted]
    exact ⟨by decide, by decide⟩
  have succeeds : Proposals.state exacting brimful 0 16 maxU64 = .succeeded := by
    rw [decided.state_eq, if_pos (decided.carried_iff.mpr carry)]
  exact ⟨finished, decided, succeeds, garbledCounted,
    decided.mono garbled 3 1 maxU64 garbledFinished (Nat.le_refl _) atLeast succeeds⟩

end Sample

end LedgerGovernance
