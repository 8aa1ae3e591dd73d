import LedgerGovernance.Proofs.Checked.Ballots
import LedgerGovernance.Proofs.Record.Sizes
import LedgerGovernance.Proofs.WellFormedness

/-! The order in which ballots come does not matter. No two orders share a record on the way:
entries are numbered as they come, a tally passes through other values, and each record has to
fit. What they share is said of the ballots as a whole, and it is what decides whether they are
all counted. -/

namespace LedgerGovernance

/-! ## Ballots -/

/-- A vote as it comes from outside, with the time at which it comes. -/
structure Ballot where
  voter : Account
  support : Number
  weight : Int
  now : Number
deriving DecidableEq, Repr

namespace Ballot

def cast (params : Params) (index : Nat) (total : Int) (record : Text) (ballot : Ballot) :
    Outcome Text :=
  Ballots.castAt params record (index : Number) ballot.voter ballot.support ballot.weight
    ballot.now total

/-- Ballots one after the other, up to the first that is refused. -/
def castAll (params : Params) (index : Nat) (total : Int) (record : Text)
    (ballots : List Ballot) : Outcome Text :=
  ballots.foldlM (cast params index total) record

/-- The vote that a valid ballot gives. -/
def vote (ballot : Ballot) : Vote where
  voter := ballot.voter
  support := (VoteSupport.ofNumber? ballot.support).getD .abstain
  weight := ballot.weight.toNat

/-- A ballot that reads as a vote. -/
structure Valid (ballot : Ballot) : Prop where
  support_eq : VoteSupport.ofNumber? ballot.support = some ballot.vote.support
  weight_eq : ballot.weight = ballot.vote.weight
  voter_size : ballot.voter.length = Account.size

end Ballot

/-- Two records that say the same about a proposal, up to the order of its votes. -/
structure Record.SameCount (record other : Text) (index : Nat) : Prop where
  tallies_eq : Ballots.tallies record index = Ballots.tallies other index
  state_eq : ∀ (params : Params) (now : Number) (total : Int),
    Proposals.state params record index now total = Proposals.state params other index now total
  list_perm : (Ballots.list record index).Perm (Ballots.list other index)
  size_eq : Text.utf8Size record = Text.utf8Size other

/-! ## The space of votes -/

namespace Vote

theorem tally_perm {votes others : List Vote} (perm : votes.Perm others)
    (support : VoteSupport) : tally support votes = tally support others :=
  ((perm.filter _).map weight).sum_eq

/-- The bytes that the votes on a proposal take: three tallies, and an entry for each vote. -/
def space (index : Nat) (votes : List Vote) : Nat :=
  (VoteSupport.all.map fun support => Text.utf8Size (Text.decimal (tally support votes))).sum +
    ((List.range votes.length).map fun place =>
      Text.utf8Size (Key.vote index place).text + 2).sum +
    (votes.map fun vote => Text.utf8Size vote.text).sum

theorem space_perm {votes others : List Vote} (perm : votes.Perm others) (index : Nat) :
    space index votes = space index others := by
  have tallies : (fun support => Text.utf8Size (Text.decimal (tally support votes))) =
      fun support => Text.utf8Size (Text.decimal (tally support others)) := by
    funext support
    rw [tally_perm perm]
  rw [space, space, tallies, perm.length_eq, (perm.map _).sum_eq]

/-- One vote more takes an entry, and another value of its tally. -/
theorem space_append_singleton (index : Nat) (votes : List Vote) (vote : Vote) :
    space index (votes ++ [vote]) + Text.utf8Size (Text.decimal (tally vote.support votes)) =
      space index votes +
        Text.utf8Size (Text.decimal (tally vote.support votes + vote.weight)) +
        Entry.span (.vote index votes.length, vote.text) := by
  simp only [space, VoteSupport.all, tally_append, tally_singleton, List.length_append,
    List.length_singleton, List.range_succ, List.map_append, List.sum_append, Entry.span]
  cases vote.support <;> simp <;> omega

/-- Votes that are added take no space away. -/
theorem space_le_append (index : Nat) (votes more : List Vote) :
    space index votes ≤ space index (votes ++ more) := by
  induction more using List.reverseRec with
  | nil => rw [List.append_nil]
  | append_singleton more vote induction =>
      have one := space_append_singleton index (votes ++ more) vote
      have digits := Text.utf8Size_decimal_mono
        (Nat.le_add_right (tally vote.support (votes ++ more)) vote.weight)
      rw [List.append_assoc] at one
      omega

end Vote

/-! ## A proposal with further votes -/

namespace Motion

/-- A proposal on which further votes were counted. -/
structure Extended (motion : Motion) (votes : List Vote) (later : Motion) : Prop where
  state_eq : later.state = motion.state
  voteStart_eq : later.voteStart = motion.voteStart
  voteEnd_eq : later.voteEnd = motion.voteEnd
  votes_eq : later.votes = motion.votes ++ votes

theorem Extended.nil (motion : Motion) : motion.Extended [] motion :=
  ⟨rfl, rfl, rfl, (List.append_nil _).symm⟩

theorem Extended.trans {motion middle later : Motion} {first second : List Vote}
    (left : motion.Extended first middle) (right : middle.Extended second later) :
    motion.Extended (first ++ second) later where
  state_eq := right.state_eq.trans left.state_eq
  voteStart_eq := right.voteStart_eq.trans left.voteStart_eq
  voteEnd_eq := right.voteEnd_eq.trans left.voteEnd_eq
  votes_eq := by rw [right.votes_eq, left.votes_eq, List.append_assoc]

/-- Whether a vote is open does not depend on what was voted. -/
theorem stateAt_eq_active_iff {motion : Motion} {params : Params} {now : Number} {total : Int} :
    motion.stateAt params now total = .active ↔ motion.state.isExplicit = false ∧
      ¬ now < (motion.voteStart : Number) ∧ now ≤ (motion.voteEnd : Number) := by
  cases explicit : motion.state.isExplicit with
  | true =>
      rw [stateAt, if_pos explicit]
      simp only [Bool.true_eq_false, false_and, iff_false]
      intro active
      rw [active] at explicit
      cases explicit
  | false =>
      rw [stateAt, if_neg (by simp [explicit])]
      by_cases early : now < (motion.voteStart : Number)
      · simp [early]
      by_cases running : now ≤ (motion.voteEnd : Number)
      · simp [early, running]
      rw [if_neg early, if_neg running]
      refine iff_of_false (fun active => ?_) fun inside => running inside.2.2
      split at active
      · cases active
      split at active <;> cases active

theorem Extended.active_iff {motion later : Motion} {votes : List Vote}
    (extended : motion.Extended votes later) (params : Params) (now : Number) (total : Int) :
    later.stateAt params now total = .active ↔ motion.stateAt params now total = .active := by
  rw [stateAt_eq_active_iff, stateAt_eq_active_iff, extended.state_eq, extended.voteStart_eq,
    extended.voteEnd_eq]

/-- The state of a proposal does not depend on the order of its votes. -/
theorem Extended.stateAt_eq {motion later other : Motion} {votes others : List Vote}
    (left : motion.Extended votes later) (right : motion.Extended others other)
    (perm : later.votes.Perm other.votes) (params : Params) (now : Number) (total : Int) :
    later.stateAt params now total = other.stateAt params now total := by
  simp only [stateAt, left.state_eq, left.voteStart_eq, left.voteEnd_eq, right.state_eq,
    right.voteStart_eq, right.voteEnd_eq, Vote.tally_perm perm]

end Motion

/-! ## One ballot -/

/-- A neat record with a proposal. -/
structure Record.Holds (record : Text) (index : Nat) (motion : Motion) : Prop where
  represented : ∃ ledger, Represents record ledger ∧ ledger.motions[index]? = some motion
  neat : Record.Neat record

namespace Ballots

/-- Where nothing stands against a vote, only the size of the record counts. -/
theorem cast_eq_encode {params : Params} {record : Text} {index : Nat} {voter : Account}
    {support : VoteSupport} {weight : Nat} {now : Number} {total : Int}
    (active : Proposals.state params record index now total = .active)
    (first : hasVoted record index voter = false)
    (fits : Proposals.amount record index (tallyField support) + weight ≤ maxU64)
    (room : count record index ≤ maxU8)
    (present : (Record.read? record (.proposal index (tallyField support))).isSome = true)
    (size : voter.length = Account.size) :
    ∃ draft : Draft,
      (Draft.ofRecord record).Revised (.proposal index (tallyField support))
        (some (Text.decimal (Proposals.amount record index (tallyField support) + weight)))
        [(.vote index (count record index), entryText (Text.hex voter) support weight)] draft ∧
      cast params record index voter support weight now total =
        draft.encode params.recordCapacity := by
  have tally := nextTally?_eq_some.mpr ⟨weight, rfl, fits, rfl⟩
  have replacing := Record.replace?_of_present present
    (Text.decimal_plain (Proposals.amount record index (tallyField support) + weight))
  obtain ⟨draft, appending⟩ : ∃ draft, ((Draft.ofRecord record).overwrite
      (Key.proposal index (tallyField support)).text
      (Text.decimal (Proposals.amount record index (tallyField support) + weight))).append
      (Key.vote index (count record index)).text (entryText (Text.hex voter) support weight) =
        .ok draft :=
    ⟨_, Draft.append_eq_ok.mpr ⟨Key.writable_text _ (entryText_plain voter support weight), rfl⟩⟩
  refine ⟨draft, (Draft.Revised.replaced replacing).append appending, ?_⟩
  simp only [cast, active, ne_eq, not_true_eq_false, if_false, first, Bool.false_eq_true, tally,
    if_neg (Nat.not_lt_of_le room), replacing, Outcome.ok_bind, Account.hex_of_size size,
    Amount.u64_natCast (Nat.le_of_add_left_le fits)]
  exact (congrArg (fun made : Outcome Draft => made >>= fun draft =>
    draft.encode params.recordCapacity) appending).trans (Outcome.ok_bind _ _)

end Ballots

/-- What a ballot that is counted has passed, and what it leaves. -/
structure Ballot.Counts (params : Params) (index : Nat) (total : Int) (record : Text)
    (motion : Motion) (ballot : Ballot) (next : Text) (later : Motion) : Prop where
  valid : ballot.Valid
  active : motion.stateAt params ballot.now total = .active
  holds : Record.Holds next index later
  extended : motion.Extended [ballot.vote] later
  size_le : Text.utf8Size next ≤ params.recordCapacity
  size_eq : Text.utf8Size next + Vote.space index motion.votes =
    Text.utf8Size record + Vote.space index later.votes

namespace Record.Holds

variable {params : Params} {record : Text} {index : Nat} {total : Int} {motion : Motion}
  (holds : Holds record index motion)

include holds

theorem counts {ballot : Ballot} {next : Text}
    (done : ballot.cast params index total record = .ok next) :
    ∃ later, ballot.Counts params index total record motion next later := by
  rcases holds.represented with ⟨ledger, represents, found⟩
  rcases Ballots.castAt_eq_ok done with
    ⟨place, choice, amount, placeEq, -, choiceEq, weightEq, counted⟩
  cases Number.natCast_inj.mp placeEq
  have vote : ballot.vote = { voter := ballot.voter, support := choice, weight := amount } := by
    rw [Ballot.vote, choiceEq, weightEq, Option.getD_some, Int.toNat_natCast]
  rcases represents.voted found counted with ⟨room, size, fresh, fits, nextRepresents⟩
  have active := counted.active
  rw [represents.stateAt_eq found] at active
  have stored := represents.proposalText_eq found (Ballots.tallyField choice)
  have revised := holds.neat.utf8Size_revised stored counted.revised.edited
  rw [counted.revised.encoded.text_eq, Motion.value_tallyField, represents.amount_eq found,
    represents.voteCount_eq found] at revised
  have space := Vote.space_append_singleton index motion.votes
    { voter := ballot.voter, support := choice, weight := amount }
  rw [List.map_singleton, List.sum_singleton] at revised
  simp only [Vote.text] at space
  refine ⟨_, {
    valid := ⟨by rw [vote, choiceEq], by rw [vote, weightEq], size⟩
    active
    holds := ⟨⟨_, nextRepresents, getElem?_set_same found _⟩,
      represents.neat_of_counted holds.neat found counted⟩
    extended := ⟨rfl, rfl, rfl, by rw [vote]; rfl⟩
    size_le := counted.revised.encoded.fits
    size_eq := ?_ }⟩
  simp only [Motion.withVote]
  omega

/-- A valid ballot of a newcomer is counted where there is room for it. -/
theorem exists_cast {ballot : Ballot} (valid : ballot.Valid)
    (active : motion.stateAt params ballot.now total = .active)
    (fresh : ballot.voter ∉ motion.votes.map Vote.voter)
    (fits : Vote.tally ballot.vote.support motion.votes + ballot.vote.weight ≤ maxU64)
    (room : motion.votes.length ≤ maxU8)
    (space : Text.utf8Size record + Vote.space index (motion.votes ++ [ballot.vote]) ≤
      params.recordCapacity + Vote.space index motion.votes) :
    ∃ next, ballot.cast params index total record = .ok next := by
  rcases holds.represented with ⟨ledger, represents, found⟩
  have stored := represents.proposalText_eq found (Ballots.tallyField ballot.vote.support)
  have present : (Record.read? record
      (.proposal index (Ballots.tallyField ballot.vote.support))).isSome = true :=
    Option.isSome_iff_exists.mpr ⟨_, stored⟩
  rw [← represents.stateAt_eq found] at active
  rw [← represents.hasVoted_eq_false found] at fresh
  rw [← represents.amount_eq found] at fits
  rw [← represents.voteCount_eq found] at room
  rcases Ballots.cast_eq_encode active fresh fits room present valid.voter_size with
    ⟨draft, revised, casting⟩
  have size := holds.neat.utf8Size_revised stored revised
  rw [Motion.value_tallyField, represents.amount_eq found, represents.voteCount_eq found,
    List.map_singleton, List.sum_singleton] at size
  have one := Vote.space_append_singleton index motion.votes ballot.vote
  have fitting : Text.utf8Size draft.toRecord ≤ params.recordCapacity := by
    have entry : Ballots.entryText (Text.hex ballot.voter) ballot.vote.support
      ballot.vote.weight = ballot.vote.text := rfl
    rw [entry] at size
    omega
  have inside : index < ledger.motions.length := (List.getElem?_eq_some_iff.mp found).1
  have indexFits : index ≤ maxU8 := Nat.le_trans (Nat.le_of_lt inside) ledger.motions_le
  refine ⟨draft.toRecord, Outcome.bind_eq_ok.mpr
    ⟨_, Ballots.judgeSupport_eq_ok.mpr valid.support_eq, Outcome.bind_eq_ok.mpr
      ⟨index, Number.keyIndex_natCast indexFits, ?_⟩⟩⟩
  rw [valid.weight_eq, casting, Draft.encode_eq_ok]
  exact ⟨fun large => Nat.not_lt_of_le fitting (Number.natCast_lt.mp large), rfl⟩

end Record.Holds

/-! ## All ballots -/

/-- Whether ballots can all be counted on a proposal, in any order. Only the last record has to
fit, as it is the largest. -/
structure Motion.Admits (motion : Motion) (params : Params) (index : Nat) (total : Int)
    (record : Text) (ballots : List Ballot) : Prop where
  valid : ∀ ballot ∈ ballots, ballot.Valid
  active : ∀ ballot ∈ ballots, motion.stateAt params ballot.now total = .active
  voters_nodup : ((motion.votes ++ ballots.map Ballot.vote).map Vote.voter).Nodup
  tally_le : ∀ support, Vote.tally support (motion.votes ++ ballots.map Ballot.vote) ≤ maxU64
  length_le : (motion.votes ++ ballots.map Ballot.vote).length ≤ Ballots.slots
  size_le : ballots ≠ [] → Text.utf8Size record +
      Vote.space index (motion.votes ++ ballots.map Ballot.vote) ≤
    params.recordCapacity + Vote.space index motion.votes

namespace Motion.Admits

variable {motion : Motion} {params : Params} {index : Nat} {total : Int} {record : Text}

theorem nil : motion.Admits params index total record [] where
  valid := nofun
  active := nofun
  voters_nodup := by simpa using motion.voters_nodup
  tally_le := by simpa using motion.tally_le
  length_le := by simpa using motion.votes_le
  size_le := fun filled => absurd rfl filled

theorem perm {ballots others : List Ballot}
    (admits : motion.Admits params index total record ballots) (perm : ballots.Perm others) :
    motion.Admits params index total record others := by
  have all := (perm.map Ballot.vote).append_left motion.votes
  constructor
  case valid => exact fun ballot member => admits.valid ballot (perm.mem_iff.mpr member)
  case active => exact fun ballot member => admits.active ballot (perm.mem_iff.mpr member)
  case voters_nodup => exact (all.map Vote.voter).nodup_iff.mp admits.voters_nodup
  case tally_le => exact fun support => Vote.tally_perm all support ▸ admits.tally_le support
  case length_le => exact all.length_eq ▸ admits.length_le
  case size_le =>
    intro filled
    rw [← Vote.space_perm all]
    exact admits.size_le fun empty => filled (perm.symm.trans (empty ▸ List.Perm.nil)).eq_nil

/-- Of the ballots that are admitted together, each can be the first. -/
theorem exists_cast {ballot : Ballot} {ballots : List Ballot}
    (admits : motion.Admits params index total record (ballot :: ballots))
    (holds : Record.Holds record index motion) :
    ∃ next, ballot.cast params index total record = .ok next := by
  have votes : motion.votes ++ (ballot :: ballots).map Ballot.vote =
      motion.votes ++ [ballot.vote] ++ ballots.map Ballot.vote := by simp
  have fresh : ballot.voter ∉ motion.votes.map Vote.voter := by
    intro member
    have nodup := admits.voters_nodup
    rw [List.map_append, List.map_cons, List.map_cons] at nodup
    exact (List.nodup_append.mp nodup).2.2 _ member _ List.mem_cons_self rfl
  have fits : Vote.tally ballot.vote.support motion.votes + ballot.vote.weight ≤ maxU64 := by
    have all := admits.tally_le ballot.vote.support
    rw [votes, Vote.tally_append, Vote.tally_append, Vote.tally_singleton, if_pos rfl] at all
    exact Nat.le_of_add_right_le all
  have room : motion.votes.length ≤ maxU8 := by
    have all := admits.length_le
    rw [votes, List.length_append, List.length_append, List.length_singleton] at all
    exact Nat.le_of_succ_le_succ (Nat.le_of_add_right_le all)
  have space : Text.utf8Size record + Vote.space index (motion.votes ++ [ballot.vote]) ≤
      params.recordCapacity + Vote.space index motion.votes := by
    have all := admits.size_le (List.cons_ne_nil _ _)
    have first := Vote.space_le_append index (motion.votes ++ [ballot.vote])
      (ballots.map Ballot.vote)
    rw [votes] at all
    omega
  exact holds.exists_cast (admits.valid ballot List.mem_cons_self)
    (admits.active ballot List.mem_cons_self) fresh fits room space

end Motion.Admits

namespace Ballot

variable {params : Params} {index : Nat} {total : Int} {record : Text} {motion : Motion}

/-- Once a ballot is counted, others are admitted if they were admitted together with it. -/
theorem Counts.admits_iff {ballot : Ballot} {next : Text} {later : Motion}
    (counts : ballot.Counts params index total record motion next later)
    (ballots : List Ballot) :
    later.Admits params index total next ballots ↔
      motion.Admits params index total record (ballot :: ballots) := by
  have votes : later.votes ++ ballots.map vote = motion.votes ++ (ballot :: ballots).map vote := by
    rw [counts.extended.votes_eq, List.append_assoc, List.singleton_append, List.map_cons]
  have active (now : Number) := counts.extended.active_iff params now total
  have size := counts.size_eq
  constructor
  · intro admits
    constructor
    case valid => exact List.forall_mem_cons.mpr ⟨counts.valid, admits.valid⟩
    case active =>
      refine List.forall_mem_cons.mpr ⟨counts.active, fun other member => ?_⟩
      exact (active other.now).mp (admits.active other member)
    case voters_nodup => exact votes ▸ admits.voters_nodup
    case tally_le => exact votes ▸ admits.tally_le
    case length_le => exact votes ▸ admits.length_le
    case size_le =>
      intro _
      rw [← votes]
      -- Behind the last ballot nothing is left to admit, but its own record has been checked.
      by_cases last : ballots = []
      · have fits := counts.size_le
        rw [last, List.map_nil, List.append_nil]
        omega
      · have fits := admits.size_le last
        omega
  · intro admits
    constructor
    case valid => exact (List.forall_mem_cons.mp admits.valid).2
    case active =>
      intro other member
      exact (active other.now).mpr (admits.active other (List.mem_cons_of_mem _ member))
    case voters_nodup => exact votes ▸ admits.voters_nodup
    case tally_le => exact votes ▸ admits.tally_le
    case length_le => exact votes ▸ admits.length_le
    case size_le =>
      intro _
      have fits := admits.size_le (List.cons_ne_nil _ _)
      rw [votes]
      omega

/-- Ballots are all counted if and only if they are admitted together. -/
theorem exists_castAll_iff (holds : Record.Holds record index motion) (ballots : List Ballot) :
    (∃ final, castAll params index total record ballots = .ok final) ↔
      motion.Admits params index total record ballots := by
  -- The induction is on the ballots, over all records; what is admitted behind the first was
  -- admitted together with it.
  induction ballots generalizing record motion with
  | nil => exact iff_of_true ⟨record, rfl⟩ .nil
  | cons ballot ballots induction =>
      constructor
      · rintro ⟨final, done⟩
        rcases Outcome.bind_eq_ok.mp done with ⟨next, first, rest⟩
        rcases holds.counts first with ⟨later, counts⟩
        exact (counts.admits_iff ballots).mp ((induction counts.holds).mp ⟨final, rest⟩)
      · intro admits
        rcases admits.exists_cast holds with ⟨next, first⟩
        rcases holds.counts first with ⟨later, counts⟩
        have others := (counts.admits_iff ballots).mpr admits
        rcases (induction counts.holds).mpr others with ⟨final, rest⟩
        exact ⟨final, Outcome.bind_eq_ok.mpr ⟨next, first, rest⟩⟩

/-- What ballots leave once they are all counted. -/
theorem castAll_leaves (holds : Record.Holds record index motion) {ballots : List Ballot}
    {final : Text} (done : castAll params index total record ballots = .ok final) :
    ∃ later, Record.Holds final index later ∧ motion.Extended (ballots.map vote) later ∧
      Text.utf8Size final + Vote.space index motion.votes =
        Text.utf8Size record + Vote.space index later.votes := by
  induction ballots generalizing record motion with
  | nil =>
      cases done
      exact ⟨motion, holds, .nil motion, rfl⟩
  | cons ballot ballots induction =>
      rcases Outcome.bind_eq_ok.mp done with ⟨next, first, rest⟩
      rcases holds.counts first with ⟨middle, counts⟩
      rcases induction counts.holds rest with ⟨later, finalHolds, extended, size⟩
      have before := counts.size_eq
      exact ⟨later, finalHolds, counts.extended.trans extended, by omega⟩

/-- The order of ballots that are all counted does not matter. -/
theorem castAll_perm (holds : Record.Holds record index motion) {ballots others : List Ballot}
    (perm : ballots.Perm others) {final : Text}
    (done : castAll params index total record ballots = .ok final) :
    ∃ other, castAll params index total record others = .ok other ∧
      Record.SameCount final other index := by
  have admits := ((exists_castAll_iff holds ballots).mp ⟨final, done⟩).perm perm
  rcases (exists_castAll_iff holds others).mpr admits with ⟨other, otherDone⟩
  rcases castAll_leaves holds done with ⟨later, finalHolds, extended, size⟩
  rcases castAll_leaves holds otherDone with ⟨otherLater, otherHolds, otherExtended, otherSize⟩
  have votes : later.votes.Perm otherLater.votes := by
    rw [extended.votes_eq, otherExtended.votes_eq]
    exact (perm.map vote).append_left motion.votes
  rcases finalHolds.represented with ⟨ledger, represents, found⟩
  rcases otherHolds.represented with ⟨otherLedger, otherRepresents, otherFound⟩
  refine ⟨other, otherDone, ?_⟩
  constructor
  case tallies_eq =>
    rw [represents.tallies_eq found, otherRepresents.tallies_eq otherFound,
      Vote.tally_perm votes, Vote.tally_perm votes, Vote.tally_perm votes]
  case state_eq =>
    intro params now total
    rw [represents.stateAt_eq found, otherRepresents.stateAt_eq otherFound]
    exact extended.stateAt_eq otherExtended votes params now total
  case list_perm =>
    rw [represents.voteList_eq found, otherRepresents.voteList_eq otherFound]
    exact votes
  case size_eq =>
    rw [Vote.space_perm votes] at size
    omega

end Ballot

/-! ## Runs -/

/-- On every record of a run: if some ballots on a proposal are all counted, they are in every
other order as well, with the same result. -/
theorem Seeded.ballots_commute (params later : Params) {start : Text} (seeded : Seeded start)
    (moves : List Move) {index : Nat} {total : Int} {ballots others : List Ballot}
    (perm : ballots.Perm others) {final : Text}
    (done : Ballot.castAll later index total (recordAfter params start moves) ballots =
      .ok final) :
    ∃ other, Ballot.castAll later index total (recordAfter params start moves) others =
        .ok other ∧
      Record.SameCount final other index := by
  cases ballots with
  | nil =>
      cases perm.nil_eq
      exact ⟨final, done, rfl, fun _ _ _ => rfl, .refl _, rfl⟩
  | cons ballot ballots =>
      rcases seeded.run_represented params moves with ⟨ledger, represents, -⟩
      rcases Outcome.bind_eq_ok.mp done with ⟨next, first, -⟩
      rcases Ballots.castAt_eq_ok first with
        ⟨place, choice, amount, placeEq, -, -, -, counted⟩
      cases Number.natCast_inj.mp placeEq
      rcases represents.exists_motion counted with ⟨motion, found⟩
      exact Ballot.castAll_perm ⟨⟨ledger, represents, found⟩, seeded.run_neat params moves⟩ perm
        done

namespace Sample

/-- The sample once Alice has made her proposal. -/
def proposed : Text :=
  recordAfter params start (moves.take 2)

/-- There is room for two votes, and for not a byte more. -/
def tight : Params :=
  { params with recordCapacity := 440, recordCapacity_pos := by decide }

def early : Ballot :=
  { voter := alice, support := 1, weight := 9, now := 105 }

def late : Ballot :=
  { voter := bob, support := 1, weight := 95, now := 115 }

/-- The tally gets its third digit with one ballot or with the other. -/
theorem ballots_swapped :
    ∃ final other, Ballot.castAll tight 0 400 proposed [early, late] = .ok final ∧
      Ballot.castAll tight 0 400 proposed [late, early] = .ok other ∧
      Record.SameCount final other 0 := by
  have succeeds : (Ballot.castAll tight 0 400 proposed [early, late]).isOk = true := by
    decide +kernel
  rcases Outcome.exists_of_isOk succeeds with ⟨final, done⟩
  rcases seeded.ballots_commute params tight (moves.take 2) (.swap late early []) done with
    ⟨other, otherDone, same⟩
  exact ⟨final, other, done, otherDone, same⟩

end Sample

end LedgerGovernance
