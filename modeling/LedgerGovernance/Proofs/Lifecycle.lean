import LedgerGovernance.Proofs.Runs

/-! The life of a proposal runs one way. Its state is stored in part and derived in part,
from the time, the tallies and the total power of the moment; still, along every run whose
times do not fall back, it never returns to an earlier stage, and its votes change only
while it is open for them. -/

namespace LedgerGovernance

/-! ## Stages -/

namespace ProposalState

/-- The stages that a proposal goes through, unless it is canceled. No proposal is ever
stored Expired. -/
def rank? : ProposalState → Option Nat
  | pending => some 0
  | active => some 1
  | succeeded | defeated => some 2
  | queued => some 3
  | executed => some 4
  | canceled | expired => none

/-- How a proposal may go on: from its state at an earlier time, over its state just before
a move, to its state just behind the move. -/
structure Advances (earlier before after : ProposalState) : Prop where
  rank_le : ∀ low ∈ earlier.rank?, ∀ high ∈ after.rank?, low ≤ high
  canceled_stays : earlier = canceled → after = canceled
  executed_stays : earlier = executed → after = executed
  canceled_from : after = canceled → earlier = canceled ∨ earlier = pending
  queued_to : earlier = queued → after = queued ∨ after = executed
  queued_from : after = queued → earlier = queued ∨ before = succeeded
  not_carried : earlier = pending → after ≠ succeeded
  not_expired : after ≠ expired

namespace Advances

variable {earlier before after state : ProposalState}

theorem refl (not_expired : state ≠ expired) : Advances state before state where
  rank_le low lowEq high highEq := by
    cases Option.mem_unique lowEq highEq
    exact Nat.le_refl low
  canceled_stays same := same
  executed_stays same := same
  canceled_from same := .inl same
  queued_to same := .inl same
  queued_from same := .inl same
  not_carried same := by
    rw [same]
    nofun
  not_expired

/-- Between states that are not stored only the stages count. -/
theorem of_idle (earlierIdle : earlier.isExplicit = false) (afterIdle : after.isExplicit = false)
    (rank_le : ∀ low ∈ earlier.rank?, ∀ high ∈ after.rank?, low ≤ high)
    (not_carried : earlier = pending → after ≠ succeeded) : Advances earlier before after where
  rank_le
  canceled_stays := by
    rintro rfl
    cases earlierIdle
  executed_stays := by
    rintro rfl
    cases earlierIdle
  canceled_from := by
    rintro rfl
    cases afterIdle
  queued_to := by
    rintro rfl
    cases earlierIdle
  queued_from := by
    rintro rfl
    cases afterIdle
  not_carried
  not_expired := by
    rintro rfl
    cases afterIdle

theorem of_canceled : Advances .pending before .canceled := by
  constructor <;> simp [rank?]

theorem of_queued (idle : earlier.isExplicit = false) :
    Advances earlier .succeeded .queued := by
  cases earlier <;> first | cases idle; done | (constructor <;> simp [rank?])

theorem of_executed : Advances .queued before .executed := by
  constructor <;> simp [rank?]

end Advances

end ProposalState

namespace Motion

variable {motion : Motion} {params : Params} {now : Nat} {total : Int}

theorem stateAt_of_isExplicit (explicit : motion.state.isExplicit = true) (now : Number) :
    motion.stateAt params now total = motion.state := by
  rw [stateAt, if_pos explicit]

/-- A state that is not stored follows from the time, and behind the end of the vote from
the votes. -/
inductive Derived (motion : Motion) (now : Nat) : ProposalState → Prop
  | pending (early : now < motion.voteStart) : Derived motion now .pending
  | active (begun : motion.voteStart ≤ now) (open_ : now ≤ motion.voteEnd) :
      Derived motion now .active
  | succeeded (begun : motion.voteStart ≤ now) (ended : motion.voteEnd < now)
      (voted : motion.votes ≠ []) : Derived motion now .succeeded
  | defeated (begun : motion.voteStart ≤ now) (ended : motion.voteEnd < now) :
      Derived motion now .defeated

theorem derived_stateAt (params : Params) (now : Nat) (total : Int)
    (idle : motion.state.isExplicit = false) :
    motion.Derived now (motion.stateAt params (now : Number) total) := by
  rw [stateAt, if_neg (by simp [idle])]
  simp only [Number.natCast_lt, Number.natCast_le]
  by_cases early : now < motion.voteStart
  · rw [if_pos early]
    exact .pending early
  rw [if_neg early]
  by_cases open_ : now ≤ motion.voteEnd
  · rw [if_pos open_]
    exact .active (Nat.le_of_not_lt early) open_
  rw [if_neg open_]
  split
  · exact .defeated (Nat.le_of_not_lt early) (Nat.lt_of_not_le open_)
  split
  · rename_i majority
    refine .succeeded (Nat.le_of_not_lt early) (Nat.lt_of_not_le open_) fun none => ?_
    simp [none] at majority
  · exact .defeated (Nat.le_of_not_lt early) (Nat.lt_of_not_le open_)

theorem derived_of_stateAt {state : ProposalState}
    (same : motion.stateAt params (now : Number) total = state)
    (idle : state.isExplicit = false) : motion.Derived now state := by
  rw [← same]
  exact derived_stateAt params now total (idle_of_stateAt same idle)

theorem stateAt_of_early (idle : motion.state.isExplicit = false)
    (early : now < motion.voteStart) :
    motion.stateAt params (now : Number) total = .pending := by
  have derived := derived_stateAt params now total idle
  generalize motion.stateAt params (now : Number) total = state at derived ⊢
  cases derived <;> first | rfl | omega

theorem stateAt_of_open (idle : motion.state.isExplicit = false)
    (begun : motion.voteStart ≤ now) (open_ : now ≤ motion.voteEnd) :
    motion.stateAt params (now : Number) total = .active := by
  have derived := derived_stateAt params now total idle
  generalize motion.stateAt params (now : Number) total = state at derived ⊢
  cases derived <;> first | rfl | omega

end Motion

/-! ## Proposals across a step -/

namespace Ledger

/-- What an action at a time can make of the proposal at an index. -/
inductive Changes (before : Ledger) (params : Params) (now : Number) (index : Nat)
    (motion : Motion) : Action → Motion → Prop
  | voted {id : Nat} {support : Number} {vote : Vote} {total : Int}
      (addressed : before.indexOf id = some index)
      (active : motion.stateAt params now total = .active) (room : motion.votes.length ≤ maxU8)
      (size : vote.voter.length = Account.size)
      (fresh : vote.voter ∉ motion.votes.map Vote.voter)
      (fits : Vote.tally vote.support motion.votes + vote.weight ≤ maxU64) :
      Changes before params now index motion (.castVote (id : Number) support)
        (motion.withVote vote room size fresh fits)
  | canceled {id : Nat} {total : Int}
      (pending : motion.stateAt params now total = .pending) :
      Changes before params now index motion (.cancel (id : Number))
        (motion.withState .canceled)
  | queued {id : Nat} {total : Int} (addressed : before.indexOf id = some index)
      (succeeded : motion.stateAt params now total = .succeeded) :
      Changes before params now index motion (.queue (id : Number)) (motion.withState .queued)
  | executed {id : Nat} (queued : motion.state = .queued) :
      Changes before params now index motion (.execute (id : Number))
        (motion.withState .executed)

namespace Step

variable {params : Params} {caller : Account} {now : Number} {action : Action}
  {before after : Ledger}

/-- Proposals stay as they are, but for one that is added or one that changes. -/
theorem motions_cases (step : Step params caller now before action after)
    (coherent : before.Coherent) :
    after.motions = before.motions ∨
    (∃ opened : Motion, opened.state = .pending ∧ opened.votes = [] ∧
      after.motions = before.motions ++ [opened]) ∨
    ∃ index motion next, before.motions[index]? = some motion ∧
      before.Changes params now index motion action next ∧
      after.motions = before.motions.set index next := by
  cases step with
  | entered _ seated => cases seated.entered <;> exact .inl rfl
  | proposed room pending unvoted => exact .inr (.inl ⟨_, pending, unvoted, rfl⟩)
  | voted addressed found _ _ active room size fresh fits =>
      exact .inr (.inr ⟨_, _, _, found, .voted addressed active room size fresh fits, rfl⟩)
  | canceled addressed found _ pending =>
      exact .inr (.inr ⟨_, _, _, found, .canceled pending, rfl⟩)
  | queued addressed found succeeded =>
      exact .inr (.inr ⟨_, _, _, found, .queued addressed succeeded, rfl⟩)
  | @executed id index place motion booking addressed found placed proposalId ready =>
      refine .inr (.inr ⟨_, _, _, found, .executed ?_, rfl⟩)
      -- The execution does not look at the proposal; the ledger tells that it is Queued, as
      -- long as its operation is not Done.
      subst proposalId
      rcases coherent.booked booking (List.mem_of_getElem? placed) with
        ⟨other, stored, otherEq, storedFound, ⟨-, queued⟩ | ⟨done, -⟩⟩
      · cases addressed.symm.trans otherEq
        cases found.symm.trans storedFound
        exact queued
      · rw [Booking.stateAt, done] at ready
        cases ready
  | _ => exact .inl rfl

theorem motion_kept (step : Step params caller now before action after)
    (coherent : before.Coherent) {index : Nat} {motion : Motion}
    (found : before.motions[index]? = some motion) :
    ∃ next, after.motions[index]? = some next ∧
      (next = motion ∨ before.Changes params now index motion action next) := by
  rcases step.motions_cases coherent with
    same | ⟨opened, -, -, appended⟩ | ⟨place, old, next, oldFound, changes, replaced⟩
  · exact ⟨motion, same ▸ found, .inl rfl⟩
  · exact ⟨motion, appended ▸ getElem?_append_of_some found _, .inl rfl⟩
  · rcases exists_getElem?_set oldFound found next with
      ⟨later, laterFound, same | ⟨rfl, rfl, rfl⟩⟩
    · exact ⟨later, replaced ▸ laterFound, .inl same⟩
    · exact ⟨later, replaced ▸ laterFound, .inr changes⟩

theorem motion_origin (step : Step params caller now before action after)
    (coherent : before.Coherent) {next : Motion} (member : next ∈ after.motions) :
    next.state = .pending ∧ next.votes = [] ∨ next ∈ before.motions ∨
      ∃ index motion, motion ∈ before.motions ∧
        before.Changes params now index motion action next := by
  rcases step.motions_cases coherent with
    same | ⟨opened, pending, unvoted, appended⟩ | ⟨index, motion, new, found, changes, replaced⟩
  · exact .inr (.inl (same ▸ member))
  · rcases List.mem_append.mp (appended ▸ member) with old | last
    · exact .inr (.inl old)
    · rw [List.mem_singleton.mp last]
      exact .inl ⟨pending, unvoted⟩
  · rcases List.mem_or_eq_of_mem_set (replaced ▸ member) with old | equal
    · exact .inr (.inl old)
    · exact .inr (.inr ⟨index, motion, List.mem_of_getElem? found, equal ▸ changes⟩)

end Step

end Ledger

/-! ## Proposals across a run -/

/-- What a run says of a proposal: it is not stored Expired, and if it has votes, its vote
had begun at the time of some move. -/
structure Motion.Recalled (motion : Motion) (moves : List Move) : Prop where
  not_expired : motion.state ≠ .expired
  begun : motion.votes ≠ [] → ∃ past ∈ moves, motion.voteStart ≤ past.now

theorem Motion.Recalled.later {motion : Motion} {moves : List Move}
    (recalled : motion.Recalled moves) (move : Move) : motion.Recalled (moves ++ [move]) where
  not_expired := recalled.not_expired
  begun voted := by
    rcases recalled.begun voted with ⟨past, member, begun⟩
    exact ⟨past, List.mem_append_left _ member, begun⟩

theorem Ledger.Changes.recalled {before : Ledger} {params : Params} {index : Nat}
    {motion next : Motion} {moves : List Move} {move : Move}
    (changes : before.Changes params (move.now : Number) index motion move.action next)
    (recalled : motion.Recalled moves) : next.Recalled (moves ++ [move]) := by
  generalize move.action = action at changes
  cases changes with
  | voted _ active =>
      refine ⟨recalled.not_expired, fun _ => ⟨move, by simp, ?_⟩⟩
      cases Motion.derived_of_stateAt active rfl with
      | active begun => exact begun
  | canceled | queued | executed => exact ⟨nofun, (recalled.later move).begun⟩

theorem Seeded.recalled (params : Params) {start : Text} (seeded : Seeded start)
    (moves : List Move) :
    ∃ ledger, Represents (recordAfter params start moves) ledger ∧ ledger.Coherent ∧
      ∀ motion ∈ ledger.motions, motion.Recalled moves := by
  rcases seeded.represented with ⟨ledger, holds, coherent, unproposed, -⟩
  apply holds.run coherent (motive := fun moves ledger =>
    ∀ motion ∈ ledger.motions, motion.Recalled moves)
  · simp [unproposed]
  · intro moves move before fault recalled _ motion member
    exact (recalled motion member).later move
  · intro moves move before after receipt _ recalled _ beforeCoherent step next member
    rcases step.motion_origin beforeCoherent member with
      ⟨pending, unvoted⟩ | old | ⟨index, motion, motionMember, changes⟩
    · exact ⟨by simp [pending], fun voted => absurd unvoted voted⟩
    · exact (recalled next old).later move
    · exact changes.recalled (recalled motion motionMember)

/-! ## One way -/

namespace Motion

variable {motion next : Motion} {params : Params} {time now : Nat} {earlierTotal total : Int}
  {earlier before after : ProposalState}

theorem Derived.isExplicit_eq_false (derived : motion.Derived now after) :
    after.isExplicit = false := by
  cases derived <;> rfl

/-- Time takes a proposal forward, and never from Pending to Succeeded at once: no vote that
carries it can have been cast. -/
theorem Derived.advances (early : motion.Derived time earlier) (late : motion.Derived now after)
    (later : time ≤ now) (begun : motion.votes ≠ [] → motion.voteStart ≤ time) :
    ProposalState.Advances earlier before after := by
  apply ProposalState.Advances.of_idle early.isExplicit_eq_false late.isExplicit_eq_false
  · cases early <;> cases late <;> simp [ProposalState.rank?] <;> omega
  · rintro rfl rfl
    cases early with
    | pending early =>
        cases late with
        | succeeded _ _ voted => exact absurd (begun voted) (Nat.not_le_of_lt early)

theorem advances_of_same (later : time ≤ now) (not_expired : motion.state ≠ .expired)
    (begun : motion.votes ≠ [] → motion.voteStart ≤ time) :
    ProposalState.Advances (motion.stateAt params (time : Number) earlierTotal) before
      (motion.stateAt params (now : Number) total) := by
  by_cases explicit : motion.state.isExplicit = true
  · rw [stateAt_of_isExplicit explicit, stateAt_of_isExplicit explicit]
    exact .refl not_expired
  · have idle := (Bool.not_eq_true _).mp explicit
    exact (derived_stateAt _ _ _ idle).advances (derived_stateAt _ _ _ idle) later begun

/-- A change takes a proposal forward; what is queued has to be Succeeded just before. -/
theorem advances_of_changes {ledger : Ledger} {index : Nat} {action : Action}
    (changes : ledger.Changes params (now : Number) index motion action next)
    (later : time ≤ now) (begun : motion.votes ≠ [] → motion.voteStart ≤ time)
    (succeeded : ∀ id : Nat, action = .queue (id : Number) → ledger.indexOf id = some index →
      before = .succeeded) :
    ProposalState.Advances (motion.stateAt params (time : Number) earlierTotal) before
      (next.stateAt params (now : Number) total) := by
  cases changes with
  | @voted _ _ vote _ _ active room size fresh fits =>
      have idle := idle_of_stateAt active rfl
      cases derived_of_stateAt active rfl with
      | active opened open_ =>
          have stillOpen : (motion.withVote vote room size fresh fits).stateAt params
            (now : Number) total = .active := stateAt_of_open idle opened open_
          rw [stillOpen]
          exact (derived_stateAt _ _ _ idle).advances (.active opened open_) later begun
  | canceled pending =>
      have idle := idle_of_stateAt pending rfl
      cases derived_of_stateAt pending rfl with
      | pending early =>
          rw [stateAt_of_early idle (Nat.lt_of_le_of_lt later early)]
          exact .of_canceled
  | @queued id _ addressed passed =>
      have idle := idle_of_stateAt passed rfl
      cases succeeded id rfl addressed
      exact .of_queued (derived_stateAt _ _ _ idle).isExplicit_eq_false
  | executed queued =>
      have explicit : motion.state.isExplicit = true := by rw [queued]; rfl
      rw [stateAt_of_isExplicit explicit, queued]
      exact .of_executed

end Motion

/-! ## Moves of a run -/

namespace Proposals

/-- The state of a proposal at a time, with the total power that the record tells. -/
def currentState (params : Params) (record : Text) (index now : Nat) : ProposalState :=
  state params record index (now : Number) (Members.totalPower record)

/-- How a move takes a proposal on from its state at a time before it. The votes stay as
they are, unless the move is a vote on the proposal within its voting window, while no
explicit state is stored. -/
structure Onward (params : Params) (record : Text) (index time : Nat) (move : Move) :
    Prop where
  advances : ProposalState.Advances (currentState params record index time)
    (currentState params record index move.now)
    (currentState params (move.next params record) index move.now)
  votes : Ballots.tallies (move.next params record) index = Ballots.tallies record index ∧
      Ballots.list (move.next params record) index = Ballots.list record index ∨
    ∃ id support, move.action = .castVote id support ∧
      Actions.addressed record id = .ok index ∧
      word record index .voteStart ≤ move.now ∧ move.now ≤ word record index .voteEnd ∧
      (storedState record index).isExplicit = false

end Proposals

namespace Represents

variable {params : Params} {record next : Text} {ledger after : Ledger} {index : Nat}
  {motion changed : Motion} (holds : Represents record ledger)

include holds

/-- A proposal that a move queues is Succeeded at the time of the move. -/
theorem currentState_of_queue {move : Move} {receipt : Receipt} {id : Nat}
    (done : move.outcome params record = .ok receipt)
    (queues : move.action = .queue (id : Number)) (addressed : ledger.indexOf id = some index) :
    Proposals.currentState params record index move.now = .succeeded := by
  rw [Move.outcome, queues] at done
  rcases Outcome.bind_eq_ok.mp done with ⟨queued, queuing, -⟩
  rcases Actions.queue_eq_ok queuing with ⟨number, place, readyAt, scheduled, passed⟩
  cases Number.natCast_inj.mp passed.proposalId_eq
  cases addressed.symm.trans (holds.indexOf_eq_ok.mp passed.index_eq)
  exact passed.succeeded

variable (found : ledger.motions[index]? = some motion)

include found

theorem currentState_eq (now : Nat) :
    Proposals.currentState params record index now =
      motion.stateAt params (now : Number) (Members.totalPower record) :=
  holds.stateAt_eq found params _ _

/-- What is read of the votes on a proposal depends on its votes only. -/
theorem votes_eq (nextHolds : Represents next after)
    (nextFound : after.motions[index]? = some changed) (same : changed.votes = motion.votes) :
    Ballots.tallies next index = Ballots.tallies record index ∧
      Ballots.list next index = Ballots.list record index := by
  have amounts (support : VoteSupport) :
      Proposals.amount next index (Ballots.tallyField support) =
        Proposals.amount record index (Ballots.tallyField support) := by
    rw [nextHolds.amount_eq nextFound, holds.amount_eq found, same]
  refine ⟨?_, by rw [nextHolds.voteList_eq nextFound, holds.voteList_eq found, same]⟩
  rw [Ballots.tallies, Ballots.tallies]
  exact (Tallies.mk.injEq ..).mpr ⟨amounts .inFavor, amounts .against, amounts .abstain⟩

/-- Behind a move a proposal is what it was, or what the action has made of it. -/
theorem motion_next (coherent : ledger.Coherent) (params : Params) (move : Move) :
    ∃ after next, Represents (move.next params record) after ∧
      after.motions[index]? = some next ∧ (next = motion ∨
        (∃ receipt, move.outcome params record = .ok receipt) ∧
          ledger.Changes params (move.now : Number) index motion move.action next) := by
  rcases holds.next coherent move with
    ⟨fault, -, same⟩ | ⟨receipt, after, done, afterHolds, -, step⟩
  · exact ⟨ledger, motion, same.symm ▸ holds, found, .inl rfl⟩
  · rcases step.motion_kept coherent found with ⟨next, nextFound, same | changes⟩
    · exact ⟨after, next, afterHolds, nextFound, .inl same⟩
    · exact ⟨after, next, afterHolds, nextFound, .inr ⟨⟨receipt, done⟩, changes⟩⟩

end Represents

/-- Along a run from members alone, a further move takes every proposal onward, seen from
any time before it that is not before a move of the run. -/
theorem lifecycle_monotone {params : Params} {start : Text} (seeded : Seeded start)
    {moves : List Move} {index time : Nat} {move : Move}
    (inside : index < Proposals.count (recordAfter params start moves))
    (settled : ∀ past ∈ moves, past.now ≤ time) (later : time ≤ move.now) :
    Proposals.Onward params (recordAfter params start moves) index time move := by
  rcases seeded.recalled params moves with ⟨ledger, holds, coherent, recalled⟩
  generalize recordAfter params start moves = record at holds inside ⊢
  rw [holds.proposalCount_eq] at inside
  have found := List.getElem?_eq_getElem inside
  have member := List.mem_of_getElem? found
  generalize ledger.motions[index] = motion at found member
  have begun : motion.votes ≠ [] → motion.voteStart ≤ time := by
    intro voted
    rcases (recalled motion member).begun voted with ⟨past, pastMember, begun⟩
    exact Nat.le_trans begun (settled past pastMember)
  rcases holds.motion_next found coherent params move with
    ⟨after, next, nextHolds, nextFound, rfl | ⟨⟨receipt, done⟩, changes⟩⟩
  · refine ⟨?_, .inl (holds.votes_eq found nextHolds nextFound rfl)⟩
    rw [holds.currentState_eq found, nextHolds.currentState_eq nextFound]
    exact Motion.advances_of_same later (recalled next member).not_expired begun
  · constructor
    case advances =>
      have succeeded : ∀ id : Nat, move.action = .queue (id : Number) →
          ledger.indexOf id = some index →
            Proposals.currentState params record index move.now = .succeeded :=
        fun id queues => holds.currentState_of_queue done queues
      rw [holds.currentState_eq found, nextHolds.currentState_eq nextFound]
      exact Motion.advances_of_changes changes later begun succeeded
    case votes =>
      generalize move.action = action at changes
      cases changes with
      | canceled | queued | executed =>
          exact .inl (holds.votes_eq found nextHolds nextFound rfl)
      | @voted id support _ _ addressed active =>
          rcases Ledger.indexOf_eq_some addressed with ⟨stored, storedFound, rfl⟩
          have addressing := Actions.addressed_eq_ok.mpr
            ⟨stored.id, rfl, stored.id_le, holds.indexOf_eq_ok.mpr addressed⟩
          cases Motion.derived_of_stateAt active rfl with
          | active opened open_ =>
              refine .inr ⟨_, support, rfl, addressing, ?_, ?_, ?_⟩
              · rwa [holds.voteStart_eq found]
              · rwa [holds.voteEnd_eq found]
              · rw [holds.storedState_eq found]
                exact Motion.idle_of_stateAt active rfl

/-- The proposal of the sample is Active at second 115, and a second later Bob queues it. -/
theorem sample_lifecycle :
    let record := recordAfter Sample.params Sample.start (Sample.moves.take 4)
    let move : Move := { caller := Sample.bob, now := 116, action := .queue Sample.id }
    0 < Proposals.count record ∧ (∀ past ∈ Sample.moves.take 4, past.now ≤ 115) ∧
      Proposals.Onward Sample.params record 0 115 move ∧
      Proposals.currentState Sample.params record 0 115 = .active ∧
      Proposals.currentState Sample.params record 0 116 = .succeeded ∧
      Proposals.currentState Sample.params (move.next Sample.params record) 0 116 =
        .queued := by
  have inside : 0 < Proposals.count
      (recordAfter Sample.params Sample.start (Sample.moves.take 4)) := by decide +kernel
  have settled : ∀ past ∈ Sample.moves.take 4, past.now ≤ 115 := by decide
  exact ⟨inside, settled, lifecycle_monotone Sample.seeded inside settled (by decide),
    by decide +kernel, by decide +kernel, by decide +kernel⟩

end LedgerGovernance
