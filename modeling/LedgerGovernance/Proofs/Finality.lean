import LedgerGovernance.Proofs.Ledger.Seats
import LedgerGovernance.Proofs.Lifecycle

/-! Who can change the outcome of a finished vote. It is recomputed from the total power of
the moment whenever it is read. Without an admin the votes stand as they are, and the total
power grows by the power of newcomers only: a defeat is final, and a success stays one
exactly as long as its votes reach the quorum of the total power that has grown. -/

namespace LedgerGovernance

/-! ## Finished votes -/

namespace Motion

variable {motion : Motion} {params : Params} {time now : Nat}

/-- Whether the votes for and the abstentions reach the quorum of a total power. -/
def reachesQuorum (motion : Motion) (params : Params) (total : Int) : Bool :=
  Members.quorum params total ≤ Amount.saturatingAdd (Vote.tally .inFavor motion.votes)
    (Vote.tally .abstain motion.votes)

/-- Behind the end of the vote the quorum and the majority decide. -/
theorem stateAt_of_ended (idle : motion.state.isExplicit = false)
    (ended : motion.voteEnd < now) (total : Int) :
    motion.stateAt params (now : Number) total =
      if motion.reachesQuorum params total ∧
        Vote.tally .against motion.votes < Vote.tally .inFavor motion.votes then .succeeded
      else .defeated := by
  have begun : ¬ now < motion.voteStart :=
    Nat.not_lt_of_le (Nat.le_trans motion.window (Nat.le_of_lt ended))
  rw [stateAt, if_neg (by simp [idle])]
  simp only [Number.natCast_lt, Number.natCast_le]
  rw [if_neg begun, if_neg (Nat.not_le_of_lt ended)]
  by_cases reaches : motion.reachesQuorum params total = true
  · rw [if_neg (Int.not_lt.mpr (of_decide_eq_true reaches))]
    simp only [reaches, true_and]
  · have missed : Amount.saturatingAdd (Vote.tally .inFavor motion.votes)
        (Vote.tally .abstain motion.votes) < Members.quorum params total :=
      Int.not_le.mp fun reached => reaches (decide_eq_true reached)
    rw [if_pos missed, if_neg fun both => reaches both.1]

/-- As the quorum grows, a defeat stays one, and a success has to reach it once more. -/
theorem stateAt_of_grown (idle : motion.state.isExplicit = false)
    (ended : motion.voteEnd < time) (later : time ≤ now) {low high : Int}
    (grown : Members.quorum params low ≤ Members.quorum params high) :
    motion.stateAt params (now : Number) high =
      if motion.stateAt params (time : Number) low = .succeeded ∧
        motion.reachesQuorum params high then .succeeded
      else .defeated := by
  rw [stateAt_of_ended idle ended, stateAt_of_ended idle (Nat.lt_of_lt_of_le ended later)]
  by_cases reaches : motion.reachesQuorum params high = true
  · have reached : motion.reachesQuorum params low = true :=
      decide_eq_true (Int.le_trans grown (of_decide_eq_true reaches))
    by_cases majority : Vote.tally .against motion.votes < Vote.tally .inFavor motion.votes <;>
      simp [reaches, reached, majority]
  · simp [reaches]

/-- What votes, cancels or executes comes too late or too early behind the end of a vote
that is not stored; all that is left is queueing. -/
theorem queue_of_changes_of_ended {ledger : Ledger} {index : Nat} {action : Action}
    {next : Motion} (changes : ledger.Changes params (now : Number) index motion action next)
    (idle : motion.state.isExplicit = false) (ended : motion.voteEnd < now) :
    ∃ id : Nat, action = .queue (id : Number) ∧ ledger.indexOf id = some index := by
  cases changes with
  | voted _ active =>
      cases derived_of_stateAt active rfl with
      | active _ open_ => exact absurd open_ (Nat.not_le_of_lt ended)
  | canceled pending =>
      cases derived_of_stateAt pending rfl with
      | pending early =>
          have begun := Nat.le_trans motion.window (Nat.le_of_lt ended)
          exact absurd early (Nat.not_lt_of_le begun)
  | queued addressed => exact ⟨_, rfl, addressed⟩
  | executed queued =>
      rw [queued] at idle
      cases idle

end Motion

theorem Represents.quorumReached_eq {record : Text} {ledger : Ledger}
    (holds : Represents record ledger) {index : Nat} {motion : Motion}
    (found : ledger.motions[index]? = some motion) (params : Params) (total : Int) :
    Ballots.quorumReached params record index total = motion.reachesQuorum params total := by
  rw [Ballots.quorumReached, holds.tallies_eq found, Motion.reachesQuorum]

/-! ## Moves without authority -/

/-- Moves from a time on, of callers who are no admins, none of which queues the proposal
at an index. -/
structure Unprivileged (params : Params) (record : Text) (index time : Nat)
    (moves : List Move) : Prop where
  later : ∀ move ∈ moves, time ≤ move.now
  plain : ∀ step move, moves[step]? = some move →
    Members.hasRole (recordAfter params record (moves.take step)) move.caller
      Role.admin.bit = false
  unqueued : ∀ step move, SucceedsAt params record moves step move →
    ∀ id, move.action = .queue id →
      Actions.addressed (recordAfter params record (moves.take step)) id ≠ .ok index

namespace Unprivileged

variable {params : Params} {record : Text} {index time : Nat} {moves : List Move} {last : Move}
  (unprivileged : Unprivileged params record index time (moves ++ [last]))

include unprivileged

theorem of_append_singleton : Unprivileged params record index time moves where
  later move member := unprivileged.later move (List.mem_append_left _ member)
  plain step move standing := by
    have inside := (List.getElem?_eq_some_iff.mp standing).1
    have plain := unprivileged.plain step move (getElem?_append_of_some standing [last])
    rwa [List.take_append_of_le_length (Nat.le_of_lt inside)] at plain
  unqueued step move succeeds := by
    have inside := succeeds.lt_length
    have unqueued := unprivileged.unqueued step move
      ((SucceedsAt.append_singleton_iff inside).mpr succeeds)
    rwa [List.take_append_of_le_length (Nat.le_of_lt inside)] at unqueued

theorem last_plain :
    Members.hasRole (recordAfter params record moves) last.caller Role.admin.bit = false := by
  have plain := unprivileged.plain moves.length last List.getElem?_concat_length
  rwa [List.take_left] at plain

theorem last_unqueued {receipt : Receipt}
    (done : last.outcome params (recordAfter params record moves) = .ok receipt) {id : Number}
    (queues : last.action = .queue id) :
    Actions.addressed (recordAfter params record moves) id ≠ .ok index := by
  have unqueued := unprivileged.unqueued moves.length last
    (SucceedsAt.last_iff.mpr ⟨rfl, receipt, done⟩) id queues
  rwa [List.take_left] at unqueued

end Unprivileged

theorem Unprivileged.singleton {params : Params} {record : Text} {index time : Nat}
    {move : Move} (later : time ≤ move.now)
    (plain : Members.hasRole record move.caller Role.admin.bit = false)
    (unqueued : ∀ id, move.action ≠ .queue id) :
    Unprivileged params record index time [move] where
  later _ member := List.mem_singleton.mp member ▸ later
  plain step _ standing := by
    rcases List.getElem?_eq_some_iff.mp standing with ⟨inside, rfl⟩
    obtain rfl : step = 0 := Nat.lt_one_iff.mp inside
    exact plain
  unqueued step _ succeeds id queues := by
    rcases List.getElem?_eq_some_iff.mp succeeds.1 with ⟨inside, rfl⟩
    obtain rfl : step = 0 := Nat.lt_one_iff.mp inside
    exact absurd queues (unqueued id)

/-! ## What is left of the outcome -/

/-- A ledger in which a proposal is what it was, and in which some newcomers have joined. -/
structure Ledger.Joined (params : Params) (before : Ledger) (index newcomers : Nat)
    (motion : Motion) (after : Ledger) : Prop where
  motion_eq : after.motions[index]? = some motion
  powers_eq : after.seats.map Seat.votingPower =
    before.seats.map Seat.votingPower ++ List.replicate newcomers params.selfRegisterPower

theorem Ledger.Joined.step {params : Params} {start before after : Ledger}
    {index newcomers : Nat} {motion : Motion} {move : Move}
    (joined : start.Joined params index newcomers motion before) (coherent : before.Coherent)
    (step : before.Step params move.caller (move.now : Number) move.action after)
    (plain : before.hasRole move.caller Role.admin.bit = false)
    (unqueued : ∀ id : Nat, move.action = .queue (id : Number) → before.indexOf id ≠ some index)
    (idle : motion.state.isExplicit = false) (ended : motion.voteEnd < move.now) :
    ∃ more, start.Joined params index more motion after := by
  have kept : after.motions[index]? = some motion := by
    rcases step.motion_kept coherent joined.motion_eq with ⟨next, nextFound, rfl | changes⟩
    · exact nextFound
    · rcases Motion.queue_of_changes_of_ended changes idle ended with ⟨id, queues, addressed⟩
      exact absurd addressed (unqueued id queues)
  rcases step.newcomer_of_not_admin plain with same | ⟨seat, power, appended⟩
  · exact ⟨newcomers, kept, by rw [same, joined.powers_eq]⟩
  · refine ⟨newcomers + 1, kept, ?_⟩
    rw [appended, List.map_append, joined.powers_eq, List.append_assoc, List.replicate_succ',
      List.map_singleton, power]

section

variable (params : Params) {record : Text} {ledger : Ledger}
  (holds : Represents record ledger) (coherent : ledger.Coherent) {index time : Nat}
  {motion : Motion} (found : ledger.motions[index]? = some motion)
  (idle : motion.state.isExplicit = false) (ended : motion.voteEnd < time)

include holds coherent found idle ended

/-- Moves without authority leave a proposal whose vote has ended, and let newcomers join. -/
theorem Represents.joined (moves : List Move) :
    ∃ after, Represents (recordAfter params record moves) after ∧ after.Coherent ∧
      (Unprivileged params record index time moves →
        ∃ newcomers, ledger.Joined params index newcomers motion after) := by
  apply holds.run coherent (motive := fun moves after =>
    Unprivileged params record index time moves →
      ∃ newcomers, ledger.Joined params index newcomers motion after)
  · intro _
    exact ⟨0, found, (List.append_nil _).symm⟩
  · intro moves move before fault joined _ unprivileged
    exact joined unprivileged.of_append_singleton
  · intro moves move before after receipt beforeHolds joined done beforeCoherent step
      unprivileged
    rcases joined unprivileged.of_append_singleton with ⟨newcomers, joined⟩
    have plain : before.hasRole move.caller Role.admin.bit = false :=
      (beforeHolds.hasRole_eq _ _).symm.trans unprivileged.last_plain
    have unqueued : ∀ id : Nat, move.action = .queue (id : Number) →
        before.indexOf id ≠ some index := by
      intro id queues addressed
      rcases Ledger.indexOf_eq_some addressed with ⟨stored, -, rfl⟩
      exact unprivileged.last_unqueued done queues (Actions.addressed_eq_ok.mpr
        ⟨stored.id, rfl, stored.id_le, beforeHolds.indexOf_eq_ok.mpr addressed⟩)
    have late := Nat.lt_of_lt_of_le ended (unprivileged.later move (by simp))
    exact joined.step beforeCoherent step plain unqueued idle late

end

namespace Proposals

/-- What a finished vote comes to, read at a time on a record and later on another one.
The total power of the later record differs by the power of its newcomers, and the votes
of before decide again on its quorum. -/
structure Concluded (params : Params) (record final : Text) (index time now : Nat) :
    Prop where
  decided : currentState params record index time = .succeeded ∨
    currentState params record index time = .defeated
  later_eq : currentState params final index now =
    if currentState params record index time = .succeeded ∧
        Ballots.quorumReached params record index (Members.totalPower final) then .succeeded
    else .defeated
  totalPower_eq : Members.totalPower final = min (Members.totalPower record +
    (Members.count final - Members.count record) * params.selfRegisterPower) maxU64
  kept : params.selfRegisterPower = 0 ∨ Members.count final = Members.count record →
    currentState params final index now = currentState params record index time

end Proposals

theorem Represents.totalPower_of_joined {params : Params} {record final : Text}
    {ledger after : Ledger} (holds : Represents record ledger)
    (finalHolds : Represents final after) {index newcomers : Nat} {motion : Motion}
    (joined : ledger.Joined params index newcomers motion after) :
    Members.totalPower final = min (Members.totalPower record +
      (Members.count final - Members.count record) * params.selfRegisterPower) maxU64 := by
  have lengths := congrArg List.length joined.powers_eq
  simp only [List.length_map, List.length_append, List.length_replicate] at lengths
  have count : Members.count final - Members.count record = newcomers := by
    rw [finalHolds.memberCount_eq, holds.memberCount_eq, lengths, Nat.add_sub_cancel_left]
  rw [finalHolds.totalPower_eq, holds.totalPower_eq, joined.powers_eq, List.sum_append,
    List.sum_replicate_nat, count]
  omega

/-- Without an admin and without being queued, a proposal whose vote has ended keeps its
outcome but for the quorum of newcomers. -/
theorem outcome_without_admin {params : Params} {start : Text} (seeded : Seeded start)
    {earlier moves : List Move} {index time now : Nat}
    (inside : index < Proposals.count (recordAfter params start earlier))
    (idle : (Proposals.storedState (recordAfter params start earlier) index).isExplicit = false)
    (ended : Proposals.word (recordAfter params start earlier) index .voteEnd < time)
    (unprivileged : Unprivileged params (recordAfter params start earlier) index time moves)
    (later : time ≤ now) :
    Proposals.Concluded params (recordAfter params start earlier)
      (recordAfter params (recordAfter params start earlier) moves) index time now := by
  rcases seeded.run_represented params earlier with ⟨ledger, holds, coherent⟩
  generalize recordAfter params start earlier = record at holds inside idle ended unprivileged ⊢
  rw [holds.proposalCount_eq] at inside
  have found := List.getElem?_eq_getElem inside
  generalize ledger.motions[index] = motion at found
  rw [holds.storedState_eq found] at idle
  rw [holds.voteEnd_eq found] at ended
  rcases holds.joined params coherent found idle ended moves with
    ⟨after, finalHolds, -, joined⟩
  rcases joined unprivileged with ⟨newcomers, joined⟩
  have total := holds.totalPower_of_joined finalHolds joined
  generalize recordAfter params record moves = final at finalHolds total ⊢
  have low : Members.totalPower record ≤ maxU64 :=
    Members.totalPower_eq_min record ▸ Nat.min_le_right _ _
  have grown := Members.quorum_mono params
    (show Members.totalPower record ≤ Members.totalPower final by omega) (by omega)
  have later_eq := motion.stateAt_of_grown idle ended later grown
  rw [← holds.currentState_eq found, ← finalHolds.currentState_eq joined.motion_eq,
    ← holds.quorumReached_eq found] at later_eq
  have decided : motion.stateAt params (time : Number) (Members.totalPower record) = _ :=
    motion.stateAt_of_ended idle ended _
  rw [← holds.currentState_eq found, ← holds.quorumReached_eq found] at decided
  have outcome : Proposals.currentState params record index time = .succeeded ∧
        Ballots.quorumReached params record index (Members.totalPower record) = true ∨
      Proposals.currentState params record index time = .defeated := by
    rw [decided]
    split
    · rename_i carried
      exact .inl ⟨rfl, carried.1⟩
    · exact .inr rfl
  refine ⟨outcome.imp_left And.left, later_eq, total, fun steady => ?_⟩
  have same : Members.totalPower final = Members.totalPower record := by
    rcases steady with powerless | alone
    · rw [total, powerless, Nat.mul_zero, Nat.add_zero, Nat.min_eq_left low]
    · rw [total, alone, Nat.sub_self, Nat.zero_mul, Nat.add_zero, Nat.min_eq_left low]
  rw [later_eq, same]
  rcases outcome with ⟨succeeded, reached⟩ | defeated
  · rw [succeeded]
    exact if_pos ⟨rfl, reached⟩
  · rw [defeated]
    exact if_neg nofun

/-- Bob delegates when the vote on the proposal of the sample is over: it has succeeded, and
still has. -/
theorem sample_outcome_kept :
    let moves : List Move :=
      [{ caller := Sample.bob, now := 117, action := .delegate Sample.alice }]
    0 < Proposals.count Sample.voted ∧
      (Proposals.storedState Sample.voted 0).isExplicit = false ∧
      Proposals.word Sample.voted 0 .voteEnd < 116 ∧
      Unprivileged Sample.params Sample.voted 0 116 moves ∧
      Proposals.Concluded Sample.params Sample.voted
        (recordAfter Sample.params Sample.voted moves) 0 116 118 ∧
      recordAfter Sample.params Sample.voted moves ≠ Sample.voted ∧
      Proposals.currentState Sample.params Sample.voted 0 116 = .succeeded := by
  have facts : 0 < Proposals.count Sample.voted ∧
      (Proposals.storedState Sample.voted 0).isExplicit = false ∧
      Proposals.word Sample.voted 0 .voteEnd < 116 ∧
      Members.hasRole Sample.voted Sample.bob Role.admin.bit = false ∧
      recordAfter Sample.params Sample.voted
        [{ caller := Sample.bob, now := 117, action := .delegate Sample.alice }] ≠
          Sample.voted ∧
      Proposals.currentState Sample.params Sample.voted 0 116 = .succeeded := by
    decide +kernel
  rcases facts with ⟨inside, idle, ended, plain, changed, succeeded⟩
  have unprivileged : Unprivileged Sample.params Sample.voted 0 116
      [{ caller := Sample.bob, now := 117, action := .delegate Sample.alice }] :=
    .singleton (by decide) plain nofun
  exact ⟨inside, idle, ended, unprivileged,
    outcome_without_admin Sample.seeded inside idle ended unprivileged (by decide), changed,
    succeeded⟩

/-- Parameters with a quorum of all power. -/
def Sample.demanding : Params :=
  { params with quorumPercentage := 100, quorumPercentage_le := by decide }

/-- The record of a proposal that has the vote of the only member. -/
def Sample.carried : Text :=
  recordAfter demanding start [
    { caller := alice, now := 100, action := .propose (some 7) },
    { caller := alice, now := 105, action := .castVote id 1 }]

/-- With a quorum of all power a proposal that the only member is for has succeeded, until
Bob registers himself. -/
theorem newcomer_defeats_succeeded_proposal :
    let joining : Move := { caller := Sample.bob, now := 116, action := .selfRegister }
    let joined := recordAfter Sample.demanding Sample.carried [joining]
    Seeded Sample.start ∧ 0 < Proposals.count Sample.carried ∧
      (Proposals.storedState Sample.carried 0).isExplicit = false ∧
      Proposals.word Sample.carried 0 .voteEnd < 116 ∧
      Unprivileged Sample.demanding Sample.carried 0 116 [joining] ∧
      Members.hasRole joined Sample.bob Role.admin.bit = false ∧
      Proposals.currentState Sample.demanding Sample.carried 0 116 = .succeeded ∧
      Proposals.currentState Sample.demanding joined 0 116 = .defeated := by
  intro joining joined
  have facts : 0 < Proposals.count Sample.carried ∧
      (Proposals.storedState Sample.carried 0).isExplicit = false ∧
      Proposals.word Sample.carried 0 .voteEnd < 116 ∧
      Members.hasRole Sample.carried Sample.bob Role.admin.bit = false ∧
      Members.hasRole joined Sample.bob Role.admin.bit = false ∧
      Proposals.currentState Sample.demanding Sample.carried 0 116 = .succeeded ∧
      Proposals.currentState Sample.demanding joined 0 116 = .defeated := by
    decide +kernel
  rcases facts with ⟨inside, idle, ended, plain, unchanged, succeeded, defeated⟩
  exact ⟨Sample.seeded, inside, idle, ended, .singleton (by decide) plain nofun, unchanged,
    succeeded, defeated⟩

end LedgerGovernance
