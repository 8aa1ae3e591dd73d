import LedgerGovernance.Proofs.Ledger.ActionEffects
import LedgerGovernance.Proofs.Ledger.Coherence
import LedgerGovernance.Proofs.Ledger.Power

/-! An applied action is a step of the ledger. The steps say once what each action can
do, with the conditions under which it does it; that every action that has a result
takes such a step is the only place where texts and keys matter. -/

namespace LedgerGovernance

/-! ## Steps -/

/-- The id of a proposal is the digest of what it was made from, its index included. It was
made when its voting delay began. -/
def Motion.IdentifiedAt (motion : Motion) (params : Params) (index : Nat) : Prop :=
  Digest.proposalId motion.proposer (motion.description : Number)
    ((motion.voteStart - params.votingDelay : Nat) : Number) (index : Number) = .ok motion.id

/-- The id of an operation is the digest of what it was scheduled from. It was scheduled with
the least delay. -/
def Booking.IdentifiedAt (booking : Booking) (params : Params) (index : Nat) : Prop :=
  Digest.operationId (booking.proposalId : Number)
    ((booking.readyAt - params.timelockMinDelay : Nat) : Number) (index : Number) =
      .ok booking.id

namespace Ledger

/-- Which entry of a member an action asks for, and by what right. An account registers
itself as a newcomer; an admin sets a power and leaves the roles, or grants or revokes
roles and leaves the power. -/
inductive Appoints (params : Params) (caller : Account) (before : Ledger) :
    Action → Account → Int → Number → Prop
  | registered (newcomer : before.standing? caller = none) :
      Appoints params caller before .selfRegister caller params.selfRegisterPower 0
  | empowered {account : Account} {power : Int}
      (admin : before.hasRole caller Role.admin.bit = true) :
      Appoints params caller before (.setVotingPower account power) account power
        (before.roles account : Nat)
  | granted {account : Account} {role : Number}
      (admin : before.hasRole caller Role.admin.bit = true) :
      Appoints params caller before (.grantRole account role) account (before.votes account)
        (Members.withRoles (before.roles account) role)
  | revoked {account : Account} {role : Number}
      (admin : before.hasRole caller Role.admin.bit = true) :
      Appoints params caller before (.revokeRole account role) account (before.votes account)
        (Members.withoutRoles (before.roles account) role)

/-- What an action of a caller at a time can make of a ledger. -/
inductive Step (params : Params) (caller : Account) (now : Number) (before : Ledger) :
    Action → Ledger → Prop
  | registered : Step params caller now before .selfRegister before
  | entered {action : Action} {account : Account} {power : Int} {mask : Number} {seat : Seat}
      {after : Ledger} (appoints : before.Appoints params caller action account power mask)
      (seated : before.Seated params account power mask seat after) :
      Step params caller now before action after
  | delegated {target : Account}
      (size : ∀ other ∈ if caller = target then none else some target,
        other.length = Account.size) :
      Step params caller now before (.delegate target)
        (before.setDelegate caller (if caller = target then none else some target) size)
  | snapshotStored {proposalId : Number} {account : Account} :
      Step params caller now before (.snapshot proposalId account) before
  | snapshotTaken {id power : Nat} {account : Account} (fits : power ≤ maxU64) :
      Step params caller now before (.snapshot (id : Number) account)
        (before.setSnapshot id account power fits)
  | proposed {description : Option Number} {motion : Motion}
      (room : before.motions.length < maxU8) (pending : motion.state = .pending)
      (unvoted : motion.votes = []) (limit : before.motions.length < params.maxProposals)
      (identified : motion.IdentifiedAt params before.motions.length) :
      Step params caller now before (.propose description) (before.addMotion motion room)
  | voted {id index : Nat} {motion : Motion} {support : Number} {vote : Vote}
      (addressed : before.indexOf id = some index)
      (found : before.motions[index]? = some motion) (voter : vote.voter = caller)
      (weight : vote.weight = before.effectiveVotes caller) {total : Int}
      (active : motion.stateAt params now total = .active)
      (room : motion.votes.length ≤ maxU8) (size : vote.voter.length = Account.size)
      (fresh : vote.voter ∉ motion.votes.map Vote.voter)
      (fits : Vote.tally vote.support motion.votes + vote.weight ≤ maxU64) :
      Step params caller now before (.castVote (id : Number) support)
        (before.setMotion index (motion.withVote vote room size fresh fits))
  | intended {id : Nat} {support : Number} {choice : VoteSupport} :
      Step params caller now before (.submitVoteIntent (id : Number) support)
        (before.setIntent id caller choice)
  | canceled {id index : Nat} {motion : Motion} (addressed : before.indexOf id = some index)
      (found : before.motions[index]? = some motion) (proposer : motion.proposer = caller)
      {total : Int} (pending : motion.stateAt params now total = .pending) :
      Step params caller now before (.cancel (id : Number))
        (before.setMotion index (motion.withState .canceled))
  | queued {id index : Nat} {motion : Motion} {booking : Booking}
      (addressed : before.indexOf id = some index)
      (found : before.motions[index]? = some motion) {total : Int}
      (succeeded : motion.stateAt params now total = .succeeded)
      (proposalId : booking.proposalId = id) (pending : booking.state = .pending)
      {time : Nat} (time_eq : now = (time : Number))
      (ready : booking.readyAt = time + params.timelockMinDelay)
      (identified : booking.IdentifiedAt params before.bookings.length) :
      Step params caller now before (.queue (id : Number))
        ((before.addBooking booking).setMotion index (motion.withState .queued))
  | executed {id index place : Nat} {motion : Motion} {booking : Booking}
      (addressed : before.indexOf id = some index)
      (found : before.motions[index]? = some motion)
      (placed : before.bookings[place]? = some booking)
      (proposalId : booking.proposalId = id)
      (ready : booking.stateAt params now = .ready) :
      Step params caller now before (.execute (id : Number))
        (((before.setBooking place (booking.withState .done)).setMotion index
          (motion.withState .executed)).setLock false)

namespace Step

variable {params : Params} {caller : Account} {now : Number} {action : Action}
  {before after : Ledger} (step : Step params caller now before action after)

include step

theorem coherent (holds : before.Coherent) : after.Coherent := by
  cases step with
  | registered | snapshotStored => exact holds
  | delegated | snapshotTaken | intended => exact ⟨holds.booked_nodup, holds.booked⟩
  | entered _ seated => exact holds.entered seated.entered
  | proposed room => exact holds.addMotion _ room
  | voted _ found _ _ active =>
      exact holds.setIdle found (Motion.idle_of_stateAt active rfl) rfl
  | canceled _ found _ pending =>
      exact holds.setIdle found (Motion.idle_of_stateAt pending rfl) rfl
  | queued addressed found succeeded proposalId pending =>
      exact holds.queue (proposalId.symm ▸ addressed) found
        (Motion.idle_of_stateAt succeeded rfl) pending
  | executed addressed found placed proposalId =>
      have executed := holds.execute (proposalId.symm ▸ addressed) found placed
      exact ⟨executed.booked_nodup, executed.booked⟩

end Step

end Ledger

/-! ## Ids -/

namespace Digest

private theorem toId_le (digest : UInt64) : toId digest ≤ maxU32 :=
  Nat.le_of_lt_succ (UInt32.toNat_lt _)

theorem proposalId_le {proposer : Account} {description now nonce : Number} {id : Nat}
    (done : proposalId proposer description now nonce = .ok id) : id ≤ maxU32 := by
  unfold proposalId at done
  split at done
  · cases done
  · simp only [Outcome.bind_eq_ok, Outcome.pure_eq_ok] at done
    rcases done with ⟨_, -, _, -, _, -, rfl⟩
    exact toId_le _

theorem operationId_le {proposalId scheduled nonce : Number} {id : Nat}
    (done : operationId proposalId scheduled nonce = .ok id) : id ≤ maxU32 := by
  simp only [operationId, Outcome.bind_eq_ok, Outcome.pure_eq_ok] at done
  rcases done with ⟨_, -, _, -, _, -, rfl⟩
  exact toId_le _

/-- The time of a proposal is part of its id, so it is a time in seconds. -/
theorem proposed_of_proposalId {proposer : Account} {description now nonce : Number} {id : Nat}
    (done : proposalId proposer description now nonce = .ok id) :
    ∃ time : Nat, now = (time : Number) ∧ time ≤ maxU32 := by
  unfold proposalId at done
  split at done
  · cases done
  · simp only [Outcome.bind_eq_ok] at done
    rcases done with ⟨_, -, time, timeEq, -⟩
    exact ⟨time, Number.u32_eq_ok.mp timeEq⟩

/-- The time of an operation is part of its id, so it is a time in seconds. -/
theorem scheduled_of_operationId {proposalId scheduled nonce : Number} {id : Nat}
    (done : operationId proposalId scheduled nonce = .ok id) :
    ∃ time : Nat, scheduled = (time : Number) ∧ time ≤ maxU32 := by
  simp only [operationId, Outcome.bind_eq_ok] at done
  rcases done with ⟨_, -, time, timeEq, -⟩
  exact ⟨time, Number.u32_eq_ok.mp timeEq⟩

end Digest

namespace Operations

variable {params : Params} {record : Text} {proposalId now delay : Number}
  {predecessor : Option Nat} {scheduled : Scheduled} {id readyAt : Nat}

/-- The operation that was scheduled. -/
def Opened.booking
    (opened : Opened params record proposalId now delay predecessor scheduled id readyAt)
    (predecessorFits : ∀ id ∈ predecessor, id ≤ maxU32) : Booking where
  id := scheduled.operationId
  proposalId := id
  readyAt
  state := .pending
  predecessor
  id_le := Digest.operationId_le opened.id_eq
  proposalId_le := (Number.u32_eq_ok.mp opened.proposalId_eq).2
  readyAt_le := opened.readyAt_le
  predecessor_le := predecessorFits

end Operations

/-- The proposal that was made. -/
def Proposals.Opened.motion {params : Params} {record : Text} {proposer : Account}
    {description now : Number} {votes : Int} {proposed : Proposed} {voteStart voteEnd hash : Nat}
    (opened : Opened params record proposer description now votes proposed voteStart voteEnd
      hash) : Motion where
  id := proposed.proposalId
  proposer
  voteStart
  voteEnd
  state := .pending
  description := hash
  votes := []
  id_le := Digest.proposalId_le opened.id_eq
  proposer_size := opened.proposer_size
  voteStart_le := opened.voteStart_le
  voteEnd_le := opened.voteEnd_le
  description_le := (Number.u32_eq_ok.mp opened.description_eq).2
  window := opened.voteStart_le_voteEnd
  votes_le := Nat.zero_le _
  voter_size := nofun
  voters_nodup := List.nodup_nil
  tally_le _ := Nat.zero_le _

namespace Represents

variable {params : Params} {record next : Text} {ledger : Ledger} {caller : Account}
  {now : Number} (holds : Represents record ledger)

include holds

/-! ## Members -/

theorem find?_eq_none {account : Account} (missing : Members.find? record account = none) :
    account ∉ ledger.seats.map Seat.account := by
  intro member
  rcases List.mem_map.mp member with ⟨seat, seatMember, same⟩
  rcases List.mem_iff_getElem?.mp seatMember with ⟨index, found⟩
  rw [Members.find?, holds.memberList_eq] at missing
  have listed : seat.member index ∈ ledger.members :=
    List.mem_mapIdx.mpr ⟨index, (List.getElem?_eq_some_iff.mp found).1, by
      rw [(List.getElem?_eq_some_iff.mp found).2]⟩
  have unequal := List.find?_eq_none.mp missing (seat.member index) listed
  exact unequal (beq_iff_eq.mpr same)

theorem find?_eq_some {account : Account} {member : Member}
    (found : Members.find? record account = some member) :
    ∃ seat, ledger.seats[member.index]? = some seat ∧ seat.account = account := by
  rw [Members.find?, holds.memberList_eq] at found
  have same : member.account = account := by simpa using List.find?_some found
  rcases List.mem_mapIdx.mp (List.mem_of_find?_eq_some found) with ⟨index, inside, rfl⟩
  exact ⟨ledger.seats[index], List.getElem?_eq_getElem inside, same⟩

/-- Entering a member enters a seat for the account. -/
theorem set {account : Account} {power : Int} {mask : Number}
    (done : Members.set params record account power mask = .ok next) :
    ∃ seat after, ledger.Seated params account power mask seat after ∧
      Represents next after := by
  rcases Members.set_eq_ok done with ⟨amount, roles, amountEq, rolesEq, size, entered⟩
  let seat : Seat := {
    account
    votingPower := amount
    roles
    account_size := size
    votingPower_le := (Amount.u64?_eq_some.mp amountEq).2
    roles_le := (Number.upTo?_eq_some.mp rolesEq).2 }
  refine ⟨seat, ?_⟩
  cases entered with
  | replaced member found revised =>
      rcases holds.find?_eq_some found with ⟨old, stored, owner⟩
      have same : ∀ old ∈ ledger.seats[member.index]?, old.account = seat.account := by
        intro other otherStored
        rw [stored] at otherStored
        rw [← Option.some.inj otherStored]
        exact owner
      have kept : (ledger.setSeat member.index seat same).seats.length = ledger.seats.length :=
        List.length_set
      exact ⟨ledger.setSeat member.index seat same, {
        account_eq := rfl
        power_eq := amountEq
        roles_eq := rolesEq
        entered := .replaced _ old stored same
        length_le := Nat.le_trans (Nat.le_of_eq kept) (Nat.le_max_left _ _)
      }, holds.setSeat stored same revised.read?_eq_update⟩
  | added missing room revised =>
      have changed := revised.read?_eq
      rw [holds.memberCount_eq] at room changed
      have space : ledger.seats.length < maxU8 := Nat.lt_of_lt_of_le room params.maxMembers_le
      have fresh := holds.find?_eq_none missing
      have longer : (ledger.addSeat seat space fresh).seats.length = ledger.seats.length + 1 :=
        List.length_append
      exact ⟨ledger.addSeat seat space fresh, {
        account_eq := rfl
        power_eq := amountEq
        roles_eq := rolesEq
        entered := .added space fresh
        length_le := Nat.le_trans (longer ▸ room) (Nat.le_max_right _ _)
      }, holds.addSeat space fresh changed⟩

private theorem standing?_eq_none {account : Account}
    (missing : Members.find? record account = none) : ledger.standing? account = none := by
  rw [← holds.standing?_eq, Members.standing?, missing, Option.map_none]

private theorem admin {granted : Unit}
    (required : Members.requireRole record caller .admin = .ok granted) :
    ledger.hasRole caller Role.admin.bit = true :=
  (holds.hasRole_eq caller _).symm.trans (Members.requireRole_eq_ok required)

/-! ## Delegations and snapshots -/

theorem delegate {target : Account}
    (done : Delegations.delegate params record caller target = .ok next) :
    ∃ after, Represents next after ∧
      Ledger.Step params caller now ledger (.delegate target) after := by
  rcases Delegations.delegate_eq_ok done with ⟨-, targetSize, delegated⟩
  have size : ∀ other ∈ if caller = target then none else some target,
      other.length = Account.size := by
    intro other stored
    by_cases same : caller = target
    · rw [if_pos same] at stored
      cases stored
    · rw [if_neg same] at stored
      cases stored
      exact targetSize
  refine ⟨_, holds.setDelegate size (delegated.read?_eq.trans ?_), .delegated size⟩
  by_cases same : caller = target <;> simp [same]

theorem snapshot {proposalId : Number} {account : Account} {taken : Delegations.Snapshot}
    (done : Actions.snapshot params record proposalId account = .ok taken) :
    ∃ after, Represents taken.record after ∧
      Ledger.Step params caller now ledger (.snapshot proposalId account) after := by
  rcases Outcome.bind_eq_ok.mp done with ⟨index, addressed, done⟩
  rcases Delegations.snapshot_eq_ok done with ⟨-, id, idEq, taken⟩
  cases (Number.u32_eq_ok.mp idEq).1
  cases taken with
  | before votingPower stored => exact ⟨ledger, holds, .snapshotStored⟩
  | now fits missing put =>
      exact ⟨_, holds.setSnapshot fits put.read?_eq, .snapshotTaken fits⟩

/-! ## Proposals -/

/-- The proposal that is made stands behind all others. -/
theorem made {proposer : Account} {description : Number} {votes : Int}
    {proposed : Proposals.Proposed} {voteStart voteEnd hash : Nat}
    (opened : Proposals.Opened params record proposer description now votes proposed voteStart
      voteEnd hash) :
    ∃ room, Represents proposed.record (ledger.addMotion opened.motion room) := by
  have room := opened.room
  have changed := opened.revised.read?_eq
  rw [holds.proposalCount_eq] at room changed
  exact ⟨Nat.lt_of_lt_of_le room params.maxProposals_le, holds.addMotion _ rfl rfl changed⟩

/-- The proposal that is made has the id that is answered. -/
theorem propose {proposed : Proposals.Proposed} {description : Option Number}
    (done : Actions.propose params record caller now description = .ok proposed) :
    ∃ motion room, motion.id = proposed.proposalId ∧
      Represents proposed.record (ledger.addMotion motion room) ∧
      Ledger.Step params caller now ledger (.propose description)
        (ledger.addMotion motion room) := by
  rcases Outcome.bind_eq_ok.mp done with ⟨votes, -, done⟩
  rcases Proposals.propose_eq_ok done with ⟨voteStart, voteEnd, hash, opened⟩
  have identified : opened.motion.IdentifiedAt params (Proposals.count record) := by
    rcases Digest.proposed_of_proposalId opened.id_eq with ⟨time, rfl, timeFits⟩
    have begins := Number.eq_add_of_checkedAdd timeFits params.votingDelay_le opened.start_eq
    have made : opened.motion.voteStart - params.votingDelay = time :=
      Nat.sub_eq_of_eq_add begins
    have digest := opened.id_eq
    rw [(Number.u32_eq_ok.mp opened.description_eq).1] at digest
    rw [Motion.IdentifiedAt, made]
    exact digest
  have limit := opened.room
  rw [holds.proposalCount_eq] at limit identified
  rcases holds.made opened with ⟨room, nextHolds⟩
  exact ⟨opened.motion, room, rfl, nextHolds, .proposed room rfl rfl limit identified⟩

private theorem addressed {id index : Nat} (found : Proposals.indexOf record id = .ok index) :
    ledger.indexOf id = some index ∧ ∃ motion, ledger.motions[index]? = some motion := by
  have indexEq := holds.indexOf_eq_ok.mp found
  rcases Ledger.indexOf_eq_some indexEq with ⟨motion, stored, -⟩
  exact ⟨indexEq, motion, stored⟩

/-- A vote is counted on a proposal only. -/
theorem exists_motion {index weight : Nat} {voter : Account} {support : VoteSupport}
    {total : Int}
    (counted : Ballots.Counted params record index voter support weight now total next) :
    ∃ motion, ledger.motions[index]? = some motion := by
  rcases counted.revised.edited.answered _ rfl with present | appended
  · rw [Record.contains_ofRecord, holds.read?_eq, Ledger.contents, Option.isSome_map] at present
    exact Option.isSome_iff_exists.mp present
  · simp [Record.lookup_cons_eq_ite] at appended

/-- A vote that is counted stands behind all others on its proposal. -/
theorem voted {index weight : Nat} {voter : Account} {support : VoteSupport} {total : Int}
    {motion : Motion} (found : ledger.motions[index]? = some motion)
    (counted : Ballots.Counted params record index voter support weight now total next) :
    ∃ room size fresh fits, Represents next (ledger.setMotion index
      (motion.withVote { voter, support, weight } room size fresh fits)) := by
  have fresh := (holds.hasVoted_eq_false found).mp counted.first
  have fits := counted.fits
  have room := counted.room
  have changed := counted.revised.read?_eq
  rw [holds.amount_eq found] at fits changed
  rw [holds.voteCount_eq found] at room changed
  exact ⟨room, counted.voter_size, fresh, fits,
    holds.addVote _ found room counted.voter_size fresh fits changed⟩

theorem castVote {proposalId support : Number}
    (done : Actions.castVote params record caller proposalId support now = .ok next) :
    ∃ after, Represents next after ∧
      Ledger.Step params caller now ledger (.castVote proposalId support) after := by
  rcases Actions.castVote_eq_ok done with ⟨index, choice, addressed, -, counted⟩
  rcases Actions.addressed_eq_ok.mp addressed with ⟨id, rfl, -, indexEq⟩
  rcases holds.addressed indexEq with ⟨indexEq, motion, found⟩
  rcases holds.voted found counted with ⟨room, size, fresh, fits, nextHolds⟩
  have active := counted.active
  rw [holds.stateAt_eq found] at active
  exact ⟨_, nextHolds, .voted indexEq found rfl (holds.effectiveVotes_eq caller) active room
    size fresh fits⟩

theorem submitVoteIntent {proposalId support : Number}
    (done : Actions.submitVoteIntent params record caller proposalId support = .ok next) :
    ∃ after, Represents next after ∧
      Ledger.Step params caller now ledger (.submitVoteIntent proposalId support) after := by
  rcases Outcome.bind_eq_ok.mp done with ⟨index, -, done⟩
  rcases Intents.submit_eq_ok done with ⟨id, choice, idEq, -, -, -, put⟩
  cases (Number.u32_eq_ok.mp idEq).1
  exact ⟨_, holds.setIntent put.read?_eq, .intended⟩

theorem cancel {proposalId : Number}
    (done : Actions.cancel params record caller proposalId now = .ok next) :
    ∃ after, Represents next after ∧
      Ledger.Step params caller now ledger (.cancel proposalId) after := by
  rcases Outcome.bind_eq_ok.mp done with ⟨index, addressed, canceling⟩
  rcases Actions.addressed_eq_ok.mp addressed with ⟨id, rfl, -, indexEq⟩
  rcases holds.addressed indexEq with ⟨indexEq, motion, found⟩
  rcases Proposals.cancel_eq_ok canceling with ⟨proposer, pending, revised⟩
  rw [holds.proposalText_eq found, Option.bind_some, Motion.value,
    Account.ofHex?_hex motion.proposer_size] at proposer
  rw [holds.stateAt_eq found] at pending
  exact ⟨_, holds.setState found revised.read?_eq_update,
    .canceled indexEq found (Option.some.inj proposer) pending⟩

theorem opened (fits : ledger.bookings.length ≤ maxU8) {proposalId delay : Number}
    {predecessor : Option Nat} {scheduled : Operations.Scheduled} {id readyAt : Nat}
    (opened : Operations.Opened params record proposalId now delay predecessor scheduled id
      readyAt)
    (predecessorFits : ∀ id ∈ predecessor, id ≤ maxU32) :
    Represents scheduled.record (ledger.addBooking (opened.booking predecessorFits)) := by
  have scheduling := opened.revised.read?_eq
  rw [holds.operationCount_eq fits] at scheduling
  exact holds.addBooking _ rfl scheduling

theorem queue (coherent : ledger.Coherent) {proposalId : Number}
    {queued : Operations.Scheduled}
    (done : Actions.queue params record proposalId now = .ok queued) :
    ∃ after, Represents queued.record after ∧
      Ledger.Step params caller now ledger (.queue proposalId) after := by
  rcases Actions.queue_eq_ok done with ⟨id, index, readyAt, scheduled, passed⟩
  rcases passed with ⟨rfl, indexEq, succeeded, opened, marked⟩
  rcases holds.addressed indexEq with ⟨indexEq, motion, found⟩
  let booking := opened.booking nofun
  rw [holds.stateAt_eq found] at succeeded
  have booked := holds.opened coherent.bookings_le opened nofun
  rcases Digest.scheduled_of_operationId opened.id_eq with ⟨time, timeEq, timeFits⟩
  have ready : readyAt = time + params.timelockMinDelay := by
    exact Number.eq_add_of_checkedAdd timeFits params.timelockMinDelay_le
      (timeEq ▸ opened.ready_eq)
  have identified : booking.IdentifiedAt params ledger.bookings.length := by
    have made : booking.readyAt - params.timelockMinDelay = time := Nat.sub_eq_of_eq_add ready
    have digest := opened.id_eq
    rw [holds.operationCount_eq coherent.bookings_le, timeEq] at digest
    rw [Booking.IdentifiedAt, made]
    exact digest
  exact ⟨_, booked.setState found marked.read?_eq_update,
    .queued indexEq found succeeded rfl rfl timeEq ready identified⟩

/-- Where the ledger is coherent, an operation that is executed has its proposal. -/
theorem complete (coherent : ledger.Coherent) {proposalId : Number}
    (done : Execution.complete params record proposalId now = .ok next) :
    ∃ index place motion booking, proposalId = (booking.proposalId : Number) ∧
      ledger.indexOf booking.proposalId = some index ∧
      ledger.motions[index]? = some motion ∧ ledger.bookings[place]? = some booking ∧
      booking.stateAt params now = .ready ∧
      Represents next (((ledger.setBooking place (booking.withState .done)).setMotion index
        (motion.withState .executed)).setLock false) ∧
      ∀ key, key ≠ .operation place .state → key ≠ .proposal index .state → key ≠ .lock →
        Record.read? next key = Record.read? record key := by
  rcases Execution.complete_eq_ok done with ⟨id, place, executed, marked, passed⟩
  rcases passed with ⟨rfl, placeEq, ready, executing, marking, releasing⟩
  rcases holds.indexOfProposal_eq_ok placeEq with ⟨booking, placed, rfl⟩
  rw [holds.operationStateAt_eq placed] at ready
  have executedHolds := holds.setOperationState placed executing.read?_eq_update
  rcases coherent.booked booking (List.mem_of_getElem? placed) with
    ⟨index, motion, indexEq, found, -⟩
  cases marking with
  | missing fault missing =>
      rw [executedHolds.indexOf_eq_ok.mpr indexEq] at missing
      cases missing
  | found foundEq marking =>
      cases indexEq.symm.trans (executedHolds.indexOf_eq_ok.mp foundEq)
      have markedHolds := executedHolds.setState found marking.read?_eq_update
      refine ⟨index, place, motion, booking, rfl, indexEq, found, placed, ready,
        markedHolds.setLock false releasing.read?_eq, fun key notDone notExecuted notLock => ?_⟩
      rw [releasing.read?_of_ne notLock, marking.read?_of_ne notExecuted nofun,
        executing.read?_of_ne notDone nofun]

theorem execute (coherent : ledger.Coherent) {proposalId : Number}
    (done : Execution.run params record caller proposalId now = .ok next) :
    ∃ after, Represents next after ∧
      Ledger.Step params caller now ledger (.execute proposalId) after := by
  rcases Outcome.bind_eq_ok.mp done with ⟨locked, starting, completing⟩
  rcases Execution.start_eq_ok starting with ⟨-, -, locking⟩
  rcases (holds.setLock true locking.read?_eq).complete ⟨coherent.booked_nodup, coherent.booked⟩
    completing with ⟨index, place, motion, booking, rfl, addressed, found, placed, ready,
      nextHolds, -⟩
  exact ⟨_, nextHolds, .executed addressed found placed rfl ready⟩

/-- Every action that has a result takes a step of the ledger. -/
theorem apply (coherent : ledger.Coherent) {action : Action} {receipt : Receipt}
    (done : action.apply params record caller now = .ok receipt) :
    ∃ after, Represents receipt.record after ∧
      Ledger.Step params caller now ledger action after := by
  have entered {action : Action} {account : Account} {power : Int} {mask : Number}
      {next : Text} (appoints : ledger.Appoints params caller action account power mask)
      (writing : Members.set params record account power mask = .ok next) :
      ∃ after, Represents next after ∧ Ledger.Step params caller now ledger action after := by
    rcases holds.set writing with ⟨seat, after, seated, nextHolds⟩
    exact ⟨after, nextHolds, .entered appoints seated⟩
  cases action with
  | selfRegister =>
      rcases Outcome.bind_eq_ok.mp done with ⟨next, registering, result⟩
      cases result
      unfold Actions.selfRegister at registering
      split at registering
      · cases registering
        exact ⟨ledger, holds, .registered⟩
      · rename_i missing
        exact entered (.registered (holds.standing?_eq_none missing)) registering
  | setVotingPower account _ =>
      rcases Outcome.bind_eq_ok.mp done with ⟨next, writing, result⟩
      cases result
      rcases Outcome.bind_eq_ok.mp writing with ⟨granted, required, writing⟩
      rw [holds.memberRoles_eq] at writing
      exact entered (.empowered (holds.admin required)) writing
  | grantRole account _ =>
      rcases Outcome.bind_eq_ok.mp done with ⟨next, writing, result⟩
      cases result
      rcases Outcome.bind_eq_ok.mp writing with ⟨granted, required, writing⟩
      rw [Members.grantRole, holds.memberVotes_eq, holds.memberRoles_eq] at writing
      exact entered (.granted (holds.admin required)) writing
  | revokeRole account _ =>
      rcases Outcome.bind_eq_ok.mp done with ⟨next, writing, result⟩
      cases result
      rcases Outcome.bind_eq_ok.mp writing with ⟨granted, required, writing⟩
      rw [Members.revokeRole, holds.memberVotes_eq, holds.memberRoles_eq] at writing
      exact entered (.revoked (holds.admin required)) writing
  | delegate target =>
      rcases Outcome.bind_eq_ok.mp done with ⟨next, delegating, result⟩
      cases result
      exact holds.delegate delegating
  | snapshot proposalId account =>
      rcases Outcome.bind_eq_ok.mp done with ⟨taken, taking, result⟩
      cases result
      exact holds.snapshot taking
  | propose description =>
      rcases Outcome.bind_eq_ok.mp done with ⟨proposed, proposing, result⟩
      cases result
      rcases holds.propose proposing with ⟨motion, room, -, nextHolds, step⟩
      exact ⟨_, nextHolds, step⟩
  | castVote proposalId support =>
      rcases Outcome.bind_eq_ok.mp done with ⟨next, casting, result⟩
      cases result
      exact holds.castVote casting
  | submitVoteIntent proposalId support =>
      rcases Outcome.bind_eq_ok.mp done with ⟨next, submitting, result⟩
      cases result
      exact holds.submitVoteIntent submitting
  | cancel proposalId =>
      rcases Outcome.bind_eq_ok.mp done with ⟨next, canceling, result⟩
      cases result
      exact holds.cancel canceling
  | queue proposalId =>
      rcases Outcome.bind_eq_ok.mp done with ⟨queued, queuing, result⟩
      cases result
      exact holds.queue coherent queuing
  | execute proposalId =>
      rcases Outcome.bind_eq_ok.mp done with ⟨next, executing, result⟩
      cases result
      exact holds.execute coherent executing

end Represents

end LedgerGovernance
