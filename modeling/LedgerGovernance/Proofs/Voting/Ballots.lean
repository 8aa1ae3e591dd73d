import LedgerGovernance.Proofs.Runs

/-! The votes on one proposal in the course of a run. A vote adds one entry to the votes of the
proposal, with the effective votes of the caller at that moment, and nothing else changes them.
From the creation of a proposal on, an account votes on it once. -/

namespace LedgerGovernance

/-! ## Votes across a step -/

namespace Ledger

/-- Whether an action is a vote on the proposal at an index. -/
def VotesOn (ledger : Ledger) (action : Action) (index : Nat) : Prop :=
  ∃ (id : Nat) (support : Number), action = .castVote (id : Number) support ∧
    ledger.indexOf id = some index

theorem not_votesOn {ledger : Ledger} {action : Action} {index : Nat}
    (other : ∀ id support, action ≠ .castVote id support) : ¬ ledger.VotesOn action index := by
  rintro ⟨id, support, same, -⟩
  exact other _ _ same

namespace Step

variable {params : Params} {caller : Account} {now : Number} {action : Action}
  {before after : Ledger}

/-- The votes on a proposal stay, but for one that a vote on it adds. -/
theorem votes_cases (step : Step params caller now before action after) {index : Nat}
    {motion : Motion} (found : before.motions[index]? = some motion) :
    ∃ next, after.motions[index]? = some next ∧
      (next.votes = motion.votes ∧ ¬ before.VotesOn action index ∨
        before.VotesOn action index ∧ ∃ vote : Vote, vote.voter = caller ∧
          vote.weight = before.effectiveVotes caller ∧
          caller ∉ motion.votes.map Vote.voter ∧ next.votes = motion.votes ++ [vote]) := by
  have restated {other : Nat} {stored : Motion}
      (storedFound : before.motions[other]? = some stored) (state : ProposalState) :
      ∃ next, (before.motions.set other (stored.withState state))[index]? = some next ∧
        next.votes = motion.votes := by
    rcases exists_getElem?_set storedFound found (stored.withState state) with
      ⟨next, nextFound, rfl | ⟨rfl, rfl, rfl⟩⟩
    · exact ⟨next, nextFound, rfl⟩
    · exact ⟨motion.withState state, nextFound, rfl⟩
  cases step with
  | entered appoints seated =>
      have unvoting : ¬ before.VotesOn action index := by
        apply not_votesOn
        rintro id support rfl
        cases appoints
      cases seated.entered with
      | replaced | added => exact ⟨motion, found, .inl ⟨rfl, unvoting⟩⟩
  | proposed room =>
      exact ⟨motion, getElem?_append_of_some found _, .inl ⟨rfl, not_votesOn (by simp)⟩⟩
  | @voted id other stored support vote addressed storedFound voter weight _ _ room size fresh =>
      by_cases here : other = index
      · subst here
        rw [found] at storedFound
        cases storedFound
        exact ⟨_, getElem?_set_same found _, .inr ⟨⟨id, support, rfl, addressed⟩, vote, voter,
          weight, voter ▸ fresh, rfl⟩⟩
      · refine ⟨motion, (List.getElem?_set_ne here).trans found, .inl ⟨rfl, ?_⟩⟩
        rintro ⟨otherId, otherSupport, same, otherAddressed⟩
        rw [← Number.natCast_inj.mp (Action.castVote.inj same).1, addressed] at otherAddressed
        exact here (Option.some.inj otherAddressed)
  | canceled _ storedFound =>
      rcases restated storedFound .canceled with ⟨next, nextFound, votes⟩
      exact ⟨next, nextFound, .inl ⟨votes, not_votesOn (by simp)⟩⟩
  | queued _ storedFound =>
      rcases restated storedFound .queued with ⟨next, nextFound, votes⟩
      exact ⟨next, nextFound, .inl ⟨votes, not_votesOn (by simp)⟩⟩
  | executed _ storedFound =>
      rcases restated storedFound .executed with ⟨next, nextFound, votes⟩
      exact ⟨next, nextFound, .inl ⟨votes, not_votesOn (by simp)⟩⟩
  | _ => exact ⟨motion, found, .inl ⟨rfl, not_votesOn (by simp)⟩⟩

end Step

end Ledger

/-! ## Votes of a run -/

/-- Whether a move has a result on a record and is a vote on the proposal at an index. -/
def Move.VotesOn (move : Move) (params : Params) (record : Text) (index : Nat) : Prop :=
  (∃ receipt, move.outcome params record = .ok receipt) ∧
    ∃ id support, move.action = .castVote id support ∧
      Actions.addressed record id = .ok index

/-- At a step of a run an account votes on the proposal at an index. -/
def VotesAt (params : Params) (start : Text) (moves : List Move) (index step : Nat)
    (voter : Account) : Prop :=
  ∃ move, moves[step]? = some move ∧ move.caller = voter ∧
    move.VotesOn params (recordAfter params start (moves.take step)) index

/-- A vote on an index is one that the record and its ledger agree on. -/
theorem Represents.votesOn_iff {record : Text} {ledger : Ledger}
    (holds : Represents record ledger) {params : Params} {move : Move} {receipt : Receipt}
    (done : move.outcome params record = .ok receipt) {index : Nat} :
    move.VotesOn params record index ↔ ledger.VotesOn move.action index := by
  constructor
  · rintro ⟨-, number, support, action, addressed⟩
    rcases Actions.addressed_eq_ok.mp addressed with ⟨id, rfl, -, indexEq⟩
    exact ⟨id, support, action, holds.indexOf_eq_ok.mp indexEq⟩
  · rintro ⟨id, support, action, indexEq⟩
    rcases Ledger.indexOf_eq_some indexEq with ⟨motion, -, rfl⟩
    have addressed := Actions.addressed_eq_ok.mpr
      ⟨motion.id, rfl, motion.id_le, holds.indexOf_eq_ok.mpr indexEq⟩
    exact ⟨⟨receipt, done⟩, _, support, action, addressed⟩

section

variable {params : Params} {start : Text} {moves : List Move} {last : Move}
  {index step : Nat} {account : Account}

theorem VotesAt.lt_length (votes : VotesAt params start moves index step account) :
    step < moves.length := by
  rcases votes with ⟨move, standing, -⟩
  exact (List.getElem?_eq_some_iff.mp standing).1

theorem VotesAt.take_iff {count : Nat} (before : step < count) :
    VotesAt params start (moves.take count) index step account ↔
      VotesAt params start moves index step account := by
  simp only [VotesAt, List.getElem?_take_of_lt before, List.take_take,
    Nat.min_eq_left (Nat.le_of_lt before)]

theorem VotesAt.append_singleton_iff :
    VotesAt params start (moves ++ [last]) index step account ↔
      VotesAt params start moves index step account ∨
        step = moves.length ∧ last.caller = account ∧
          last.VotesOn params (recordAfter params start moves) index := by
  by_cases before : step < moves.length
  · have apart : step ≠ moves.length := Nat.ne_of_lt before
    have same : VotesAt params start ((moves ++ [last]).take moves.length) index step account ↔
        VotesAt params start (moves ++ [last]) index step account := take_iff before
    rw [List.take_left] at same
    simp only [apart, false_and, or_false]
    exact same.symm
  · have none : ¬ VotesAt params start moves index step account :=
      fun votes => before votes.lt_length
    by_cases here : step = moves.length
    · subst here
      simp only [none, false_or, true_and]
      simp [VotesAt]
    · have never : ¬ VotesAt params start (moves ++ [last]) index step account := by
        intro votes
        have inside := votes.lt_length
        rw [List.length_append, List.length_singleton] at inside
        omega
      simp [none, never, here]

end

/-! ## An account votes once -/

/-- The ledger behind a run on a proposal holds everybody who has voted on it. -/
def Polled (params : Params) (start : Text) (index : Nat) (moves : List Move)
    (ledger : Ledger) : Prop :=
  ∃ motion, ledger.motions[index]? = some motion ∧
    ∀ {step voter}, VotesAt params start moves index step voter →
      voter ∈ motion.votes.map Vote.voter

namespace Polled

variable {params : Params} {start : Text} {index : Nat} {moves : List Move}
  {ledger after : Ledger} {move : Move}

theorem refused (polled : Polled params start index moves ledger) {fault : Fault}
    (fails : move.outcome params (recordAfter params start moves) = .error fault) :
    Polled params start index (moves ++ [move]) ledger := by
  rcases polled with ⟨motion, found, voted⟩
  refine ⟨motion, found, fun votes => ?_⟩
  rcases VotesAt.append_singleton_iff.mp votes with earlier | ⟨-, -, ⟨receipt, done⟩, -⟩
  · exact voted earlier
  · cases fails.symm.trans done

theorem stepped (polled : Polled params start index moves ledger)
    (holds : Represents (recordAfter params start moves) ledger) {receipt : Receipt}
    (done : move.outcome params (recordAfter params start moves) = .ok receipt)
    (step : Ledger.Step params move.caller (move.now : Number) ledger move.action after) :
    Polled params start index (moves ++ [move]) after := by
  rcases polled with ⟨motion, found, voted⟩
  rcases step.votes_cases found with ⟨next, nextFound, cases⟩
  refine ⟨next, nextFound, fun votes => ?_⟩
  rcases VotesAt.append_singleton_iff.mp votes with earlier | ⟨-, rfl, votesOn⟩
  · rcases cases with ⟨same, -⟩ | ⟨-, vote, -, -, -, grown⟩
    · rw [same]
      exact voted earlier
    · rw [grown, List.map_append]
      exact List.mem_append_left _ (voted earlier)
  · rcases cases with ⟨-, unvoting⟩ | ⟨-, vote, voter, -, -, grown⟩
    · exact absurd ((holds.votesOn_iff done).mp votesOn) unvoting
    · rw [grown, List.map_append, ← voter]
      exact List.mem_append_right _ (List.mem_singleton_self _)

end Polled

/-- A record on which the proposal at an index has been created and not voted on. -/
structure Unvoted (record : Text) (index : Nat) (ledger : Ledger) (motion : Motion) :
    Prop where
  represents : Represents record ledger
  coherent : ledger.Coherent
  found : ledger.motions[index]? = some motion
  unvoted : motion.votes = []

namespace Unvoted

variable {params : Params} {start : Text} {index : Nat} {ledger : Ledger} {motion : Motion}
  (unvoted : Unvoted start index ledger motion)

include unvoted

theorem polled (params : Params) (moves : List Move) :
    ∃ ledger, Represents (recordAfter params start moves) ledger ∧ ledger.Coherent ∧
      Polled params start index moves ledger := by
  have initial : Polled params start index [] ledger :=
    ⟨motion, unvoted.found, fun votes => absurd votes.lt_length (Nat.not_lt_zero _)⟩
  exact unvoted.represents.run unvoted.coherent initial
    (fun _ _ _ _ polled fails => polled.refused fails)
    (fun _ _ _ _ _ holds polled done _ step => polled.stepped holds done step) moves

private theorem not_votes_again {moves : List Move} {first second : Nat} {voter : Account}
    (firstVotes : VotesAt params start moves index first voter)
    (secondVotes : VotesAt params start moves index second voter) : ¬ first < second := by
  intro before
  rcases unvoted.polled params (moves.take second) with
    ⟨ledger, holds, coherent, motion, found, voted⟩
  have member := voted ((VotesAt.take_iff before).mpr firstVotes)
  rcases secondVotes with ⟨move, -, caller, votesOn⟩
  have succeeds := votesOn.1
  rcases succeeds with ⟨receipt, done⟩
  rcases holds.apply coherent done with ⟨after, -, step⟩
  rcases step.votes_cases found with ⟨next, -, ⟨-, unvoting⟩ | ⟨-, vote, -, -, fresh, -⟩⟩
  · exact unvoting ((holds.votesOn_iff done).mp votesOn)
  · exact fresh (caller ▸ member)

theorem votes_once {moves : List Move} {first second : Nat} {voter : Account}
    (firstVotes : VotesAt params start moves index first voter)
    (secondVotes : VotesAt params start moves index second voter) : first = second := by
  have notBefore := unvoted.not_votes_again firstVotes secondVotes
  have notAfter := unvoted.not_votes_again secondVotes firstVotes
  omega

end Unvoted

end LedgerGovernance
