import LedgerGovernance.Proofs.Ledger.Contents
import LedgerGovernance.Proofs.Ledger.Effects
import Mathlib.Data.List.Find
import Mathlib.Data.List.Induction

/-! Reading a record that represents a ledger. Every reader of the library finds there
what the ledger holds: no entry fails to parse, and the runs of indices end where the
lists do. -/

namespace LedgerGovernance

/-! ## Entries of three parts -/

private theorem splitOn_colons {first second third : Text} (firstFree : ':' ∉ first)
    (secondFree : ':' ∉ second) (thirdFree : ':' ∉ third) :
    (first ++ ':' :: (second ++ ':' :: third)).splitOn ':' = [first, second, third] := by
  have joined : first ++ ':' :: (second ++ ':' :: third) =
      [':'].intercalate [first, second, third] := by
    simp [List.intercalate_cons_cons]
  rw [joined]
  apply List.splitOn_intercalate
  · simp [firstFree, secondFree, thirdFree]
  · exact List.cons_ne_nil _ _

private theorem colon_not_mem_decimal (value : Nat) : ':' ∉ Text.decimal value :=
  Text.not_mem_decimal (by decide) value

private theorem colon_not_mem_hex (bytes : Bytes) : ':' ∉ Text.hex bytes :=
  Text.not_mem_hex (by decide) bytes

namespace Seat

@[simp] theorem parse?_text (seat : Seat) (index : Nat) :
    Members.parse? index seat.text = some (seat.member index) := by
  have parts := splitOn_colons (colon_not_mem_hex seat.account)
    (colon_not_mem_decimal seat.votingPower) (colon_not_mem_decimal seat.roles)
  simp only [Members.parse?, text, Members.entryText, parts]
  rw [Account.ofHex?_hex seat.account_size, Text.readU64?_decimal seat.votingPower_le,
    Text.readCount?_decimal seat.roles_le]
  rfl

end Seat

namespace Vote

theorem parse?_text {vote : Vote} (size : vote.voter.length = Account.size)
    (weight_le : vote.weight ≤ maxU64) : Ballots.parse? vote.text = some vote := by
  have parts := splitOn_colons (colon_not_mem_hex vote.voter)
    (colon_not_mem_decimal vote.support.code) (colon_not_mem_decimal vote.weight)
  have code_le : vote.support.code ≤ maxU8 := by cases vote.support <;> decide
  simp only [Ballots.parse?, text, Ballots.entryText, parts]
  rw [Account.ofHex?_hex size, Text.readCount?_decimal code_le, Text.readU64?_decimal weight_le,
    Option.bind_some, VoteSupport.ofCode?_code]
  rfl

end Vote

/-- A proposal as it is read at an index. -/
def Motion.proposal (motion : Motion) (index : Nat) : Proposal where
  index
  id := motion.id
  proposer := motion.proposer
  voteStart := motion.voteStart
  voteEnd := motion.voteEnd
  storedState := motion.state
  forVotes := Vote.tally .inFavor motion.votes
  againstVotes := Vote.tally .against motion.votes
  abstainVotes := Vote.tally .abstain motion.votes
  description := motion.description

/-- An operation as it is read at an index. -/
def Booking.operation (booking : Booking) (index : Nat) : Operation where
  index
  id := booking.id
  proposalId := booking.proposalId
  readyAt := booking.readyAt
  storedState := booking.state
  predecessorId := booking.predecessor.getD 0

/-! ## Runs of indices -/

/-- What is found at each index of a list is the list. -/
private theorem filterMap_range {α β : Type} (list : List α) (read : Nat → α → β) :
    ((List.range list.length).filterMap fun index => list[index]?.map (read index)) =
      list.mapIdx read := by
  induction list using List.reverseRec with
  | nil => rfl
  | append_singleton list last induction =>
      have before : ∀ index ∈ List.range list.length,
          (list ++ [last])[index]?.map (read index) = list[index]?.map (read index) := by
        intro index member
        rw [List.getElem?_append_left (List.mem_range.mp member)]
      rw [List.length_append, List.length_singleton, List.range_succ, List.filterMap_append,
        List.filterMap_congr before, induction, List.mapIdx_concat]
      simp

/-- A run of indices that are taken ends where the list does. -/
private theorem takeWhile_range (taken : Nat → Bool) {count bound : Nat} (fits : count ≤ bound)
    (inside : ∀ index < count, taken index = true)
    (outside : ∀ index, count ≤ index → taken index = false) :
    ((List.range bound).takeWhile taken).length = count := by
  obtain ⟨more, rfl⟩ := Nat.exists_eq_add_of_le fits
  rw [List.range_add, List.takeWhile_append_of_pos]
  · cases more with
    | zero => simp
    | succ more => simp [List.range_succ_eq_map, outside count (Nat.le_refl count)]
  · intro index member
    exact inside index (List.mem_range.mp member)

/-- Trying the indices of a list in order finds the first element that passes. -/
private theorem find?_range {α : Type} (list : List α) (test : α → Bool) :
    ((List.range list.length).find? fun index => list[index]?.any test) =
      list.findIdx? test := by
  induction list using List.reverseRec with
  | nil => rfl
  | append_singleton list last induction =>
      have before : ∀ index ∈ List.range list.length,
          (list ++ [last])[index]?.any test = list[index]?.any test := by
        intro index member
        rw [List.getElem?_append_left (List.mem_range.mp member)]
      rw [List.length_append, List.length_singleton, List.range_succ, List.find?_append,
        List.find?_congr before, induction, List.findIdx?_append]
      by_cases passes : test last = true <;> simp [passes]

/-- Where elements are told by what their indices leave alone, a filter does not see the
indices. -/
private theorem filter_mapIdx {α β γ : Type} {test : β → Bool} {view : β → γ}
    {elementTest : α → Bool} {elementView : α → γ} (list : List α) (image : Nat → α → β)
    (tests : ∀ index element, test (image index element) = elementTest element)
    (views : ∀ index element, view (image index element) = elementView element) :
    ((list.mapIdx image).filter test).map view = (list.filter elementTest).map elementView := by
  induction list generalizing image with
  | nil => rfl
  | cons head tail induction =>
      have rest := induction _ (fun index => tests (index + 1)) fun index => views (index + 1)
      rw [List.mapIdx_cons, List.filter_cons, List.filter_cons, tests]
      cases elementTest head with
      | true =>
          rw [if_pos rfl, if_pos rfl, List.map_cons, List.map_cons, views, rest]
      | false =>
          rw [if_neg Bool.false_ne_true, if_neg Bool.false_ne_true, rest]

namespace Record

theorem readCount_eq {record : Text} {key : Key} {count : Nat} (fits : count ≤ maxU8)
    (stored : read? record key = Ledger.counter count) : readCount record key.text = count := by
  have value : findValue record key.text = Ledger.counter count := stored
  rw [readCount, value]
  by_cases zero : count = 0
  · simp [Ledger.counter, zero]
  · simp [Ledger.counter, zero, Text.readCount?_decimal fits]

end Record

/-! ## Standing -/

/-- What an account has as a member. -/
structure Standing where
  votingPower : Nat
  roles : Nat
deriving DecidableEq, Repr

def Member.standing (member : Member) : Standing where
  votingPower := member.votingPower
  roles := member.roles

def Seat.standing (seat : Seat) : Standing where
  votingPower := seat.votingPower
  roles := seat.roles

namespace Members

/-- The standing of an account, if it is a member. -/
def standing? (record : Text) (account : Account) : Option Standing :=
  (find? record account).map Member.standing

theorem votes_eq_standing (record : Text) (account : Account) :
    votes record account = ((standing? record account).map Standing.votingPower).getD 0 := by
  rw [standing?, Option.map_map]
  rfl

theorem roles_eq_standing (record : Text) (account : Account) :
    roles record account = ((standing? record account).map Standing.roles).getD 0 := by
  rw [standing?, Option.map_map]
  rfl

end Members

namespace Ledger

def standing? (ledger : Ledger) (account : Account) : Option Standing :=
  (ledger.seats.find? fun seat => seat.account == account).map Seat.standing

def votes (ledger : Ledger) (account : Account) : Nat :=
  ((ledger.standing? account).map Standing.votingPower).getD 0

def roles (ledger : Ledger) (account : Account) : Nat :=
  ((ledger.standing? account).map Standing.roles).getD 0

def hasRole (ledger : Ledger) (account : Account) (mask : Number) : Bool :=
  BitVec.ofNat 32 (ledger.roles account) &&& mask.toWord != 0

/-- The members with their indices. -/
def members (ledger : Ledger) : List Member :=
  ledger.seats.mapIdx fun index seat => seat.member index

theorem map_account_members (ledger : Ledger) :
    ledger.members.map Member.account = ledger.seats.map Seat.account := by
  apply List.ext_getElem?
  intro index
  cases found : ledger.seats[index]? <;> simp [members, found, Seat.member]

/-- The account that votes for an account. -/
def delegateOf (ledger : Ledger) (account : Account) : Account :=
  (ledger.delegate account).getD account

/-- The index of the first proposal with an id. -/
def indexOf (ledger : Ledger) (id : Nat) : Option Nat :=
  ledger.motions.findIdx? fun motion => motion.id = id

theorem indexOf_eq_ids (ledger : Ledger) (id : Nat) :
    ledger.indexOf id = (ledger.motions.map Motion.id).findIdx? fun other => other = id := by
  rw [List.findIdx?_map]
  rfl

theorem indexOf_eq_some {ledger : Ledger} {id index : Nat}
    (found : ledger.indexOf id = some index) :
    ∃ motion, ledger.motions[index]? = some motion ∧ motion.id = id := by
  rcases List.findIdx?_eq_some_iff_getElem.mp found with ⟨inside, passes, -⟩
  exact ⟨ledger.motions[index], List.getElem?_eq_getElem inside, by simpa using passes⟩

/-- The index of the first operation with an id. -/
def operationIndexOf (ledger : Ledger) (id : Nat) : Option Nat :=
  ledger.bookings.findIdx? fun booking => booking.id = id

theorem operationIndexOf_eq_ids (ledger : Ledger) (id : Nat) :
    ledger.operationIndexOf id =
      (ledger.bookings.map Booking.id).findIdx? fun other => other = id := by
  rw [List.findIdx?_map]
  rfl

end Ledger

namespace Represents

variable {record : Text} {ledger : Ledger} (holds : Represents record ledger)

include holds

theorem read?_eq (key : Key) : Record.read? record key = ledger.contents key :=
  congrFun holds key

/-! ## Members -/

theorem memberCount_eq : Members.count record = ledger.seats.length :=
  Record.readCount_eq ledger.seats_le (holds.read?_eq .memberCount)

theorem memberAt?_eq (index : Nat) :
    Members.at? record index = ledger.seats[index]?.map fun seat => seat.member index := by
  rw [Members.at?, holds.read?_eq, Ledger.contents]
  cases ledger.seats[index]? <;> simp

theorem memberList_eq : Members.list record = ledger.members := by
  have at? : Members.at? record = fun index =>
      ledger.seats[index]?.map fun seat => seat.member index := funext holds.memberAt?_eq
  rw [Members.list, holds.memberCount_eq, at?, filterMap_range]
  rfl

theorem accounts_nodup : ((Members.list record).map Member.account).Nodup := by
  rw [holds.memberList_eq, Ledger.map_account_members]
  exact ledger.accounts_nodup

theorem standing?_eq (account : Account) :
    Members.standing? record account = ledger.standing? account := by
  rw [Members.standing?, Members.find?, holds.memberList_eq, Ledger.standing?,
    ← List.head?_filter, ← List.head?_filter, ← List.head?_map, ← List.head?_map]
  exact congrArg List.head? (filter_mapIdx ledger.seats (fun index seat => seat.member index)
    (fun _ _ => rfl) fun _ _ => rfl)

theorem memberVotes_eq (account : Account) :
    Members.votes record account = ledger.votes account := by
  rw [Members.votes_eq_standing, holds.standing?_eq, Ledger.votes]

theorem memberRoles_eq (account : Account) :
    Members.roles record account = ledger.roles account := by
  rw [Members.roles_eq_standing, holds.standing?_eq, Ledger.roles]

theorem hasRole_eq (account : Account) (mask : Number) :
    Members.hasRole record account mask = ledger.hasRole account mask := by
  rw [Members.hasRole, holds.memberRoles_eq, Ledger.hasRole]

/-! ## Proposals and their votes -/

theorem proposalCount_eq : Proposals.count record = ledger.motions.length :=
  Record.readCount_eq ledger.motions_le (holds.read?_eq .proposalCount)

theorem proposalField?_eq (index : Nat) (field : ProposalField) :
    Proposals.field? record index field =
      ledger.motions[index]?.map fun motion => motion.value field :=
  holds.read?_eq (.proposal index field)

theorem written?_eq (index vote : Nat) :
    Ballots.written? record index vote =
      ledger.motions[index]?.bind fun motion => motion.votes[vote]?.map Vote.text :=
  holds.read?_eq (.vote index vote)

section Motion

variable {index : Nat} {motion : Motion} (found : ledger.motions[index]? = some motion)

include found

theorem proposalText_eq (field : ProposalField) :
    Proposals.field? record index field = some (motion.value field) := by
  rw [holds.proposalField?_eq, found, Option.map_some]

theorem storedState_eq : Proposals.storedState record index = motion.state := by
  have code_le : motion.state.code ≤ maxU8 := by cases motion.state <;> decide
  simp [Proposals.storedState, holds.proposalText_eq found, Motion.value,
    Text.readCount?_decimal code_le]

theorem voteStart_eq : Proposals.word record index .voteStart = motion.voteStart := by
  simp [Proposals.word, holds.proposalText_eq found, Motion.value,
    Text.readU32?_decimal motion.voteStart_le]

theorem voteEnd_eq : Proposals.word record index .voteEnd = motion.voteEnd := by
  simp [Proposals.word, holds.proposalText_eq found, Motion.value,
    Text.readU32?_decimal motion.voteEnd_le]

theorem description_eq : Proposals.word record index .description = motion.description := by
  simp [Proposals.word, holds.proposalText_eq found, Motion.value,
    Text.readU32?_decimal motion.description_le]

theorem amount_eq (support : VoteSupport) :
    Proposals.amount record index (Ballots.tallyField support) =
      Vote.tally support motion.votes := by
  simp [Proposals.amount, holds.proposalText_eq found, Motion.value_tallyField,
    Text.readU64?_decimal (motion.tally_le support)]

theorem tallies_eq :
    Ballots.tallies record index = {
      forVotes := Vote.tally .inFavor motion.votes
      againstVotes := Vote.tally .against motion.votes
      abstainVotes := Vote.tally .abstain motion.votes } := by
  have inFavor := holds.amount_eq found .inFavor
  have against := holds.amount_eq found .against
  have abstain := holds.amount_eq found .abstain
  simp only [Ballots.tallyField] at inFavor against abstain
  rw [Ballots.tallies, inFavor, against, abstain]

theorem proposalAt?_eq : Proposals.at? record index = some (motion.proposal index) := by
  have inFavor := holds.amount_eq found .inFavor
  have against := holds.amount_eq found .against
  have abstain := holds.amount_eq found .abstain
  simp only [Ballots.tallyField] at inFavor against abstain
  simp [Proposals.at?, holds.proposalText_eq found, Motion.value, Motion.proposal,
    Text.readU32?_decimal motion.id_le, Account.ofHex?_hex motion.proposer_size,
    holds.voteStart_eq found, holds.voteEnd_eq found, holds.storedState_eq found,
    holds.description_eq found, inFavor, against, abstain]

theorem writtenVote?_eq (vote : Nat) :
    Ballots.written? record index vote = motion.votes[vote]?.map Vote.text := by
  rw [holds.written?_eq, found, Option.bind_some]

theorem voteCount_eq : Ballots.count record index = motion.votes.length := by
  apply takeWhile_range _ motion.votes_le
  · intro vote inside
    simp [holds.writtenVote?_eq found, inside]
  · intro vote outside
    simp [holds.writtenVote?_eq found, outside]

theorem parsedVote?_eq (vote : Nat) :
    (Ballots.written? record index vote).bind Ballots.parse? = motion.votes[vote]? := by
  rw [holds.writtenVote?_eq found]
  cases listed : motion.votes[vote]? with
  | none => rfl
  | some stored =>
      have member : stored ∈ motion.votes := List.mem_of_getElem? listed
      exact Vote.parse?_text (motion.voter_size stored member)
        (Nat.le_trans (Vote.weight_le_tally member) (motion.tally_le stored.support))

theorem voteList_eq : Ballots.list record index = motion.votes := by
  have parsed : (fun vote => (Ballots.written? record index vote).bind Ballots.parse?) =
      fun vote => motion.votes[vote]?.map id := by
    funext vote
    rw [holds.parsedVote?_eq found, Option.map_id, id]
  rw [Ballots.list, holds.voteCount_eq found, parsed, filterMap_range]
  exact List.mapIdx_eq_iff.mpr fun vote => by simp

theorem hasVoted_eq_false {voter : Account} :
    Ballots.hasVoted record index voter = false ↔ voter ∉ motion.votes.map Vote.voter := by
  simp [Ballots.hasVoted, Ballots.find?, holds.voteList_eq found]

end Motion

theorem proposalList_eq :
    Proposals.list record = ledger.motions.mapIdx fun index motion => motion.proposal index := by
  have at? : Proposals.at? record = fun index =>
      ledger.motions[index]?.map fun motion => motion.proposal index := by
    funext index
    cases found : ledger.motions[index]? with
    | none => simp [Proposals.at?, holds.proposalField?_eq, found]
    | some motion => rw [holds.proposalAt?_eq found, Option.map_some]
  rw [Proposals.list, holds.proposalCount_eq, at?, filterMap_range]

theorem indexOf_eq (id : Nat) :
    Proposals.indexOf record id =
      match ledger.indexOf id with
      | some index => .ok index
      | none => Outcome.refuse (.noProposalWithId id) := by
  have test : (fun index => Proposals.field? record index .id == some (Text.decimal id)) =
      fun index => ledger.motions[index]?.any fun motion => motion.id = id := by
    funext index
    rw [holds.proposalField?_eq]
    cases ledger.motions[index]? with
    | none => rfl
    | some motion =>
        simp [Motion.value, Text.decimal_injective.eq_iff, Bool.beq_eq_decide_eq]
  rw [Proposals.indexOf, holds.proposalCount_eq, test, find?_range]
  rfl

theorem indexOf_eq_ok {id index : Nat} :
    Proposals.indexOf record id = .ok index ↔ ledger.indexOf id = some index := by
  rw [holds.indexOf_eq]
  cases ledger.indexOf id <;> simp

/-! ## Timelock operations -/

theorem operationField?_eq (index : Nat) (field : OperationField) :
    Operations.field? record index field =
      ledger.bookings[index]?.bind fun booking => booking.value field :=
  holds.read?_eq (.operation index field)

section Booking

variable {index : Nat} {booking : Booking} (found : ledger.bookings[index]? = some booking)

include found

theorem operationText_eq (field : OperationField) :
    Operations.field? record index field = booking.value field := by
  rw [holds.operationField?_eq, found, Option.bind_some]

theorem operationState_eq : Operations.storedState record index = booking.state := by
  have code_le : booking.state.code ≤ maxU8 := by cases booking.state <;> decide
  simp [Operations.storedState, holds.operationText_eq found, Booking.value,
    Text.readCount?_decimal code_le]

theorem readyAt_eq : Operations.word record index .ready = booking.readyAt := by
  simp [Operations.word, holds.operationText_eq found, Booking.value,
    Text.readU32?_decimal booking.readyAt_le]

theorem predecessor_eq :
    Operations.word record index .predecessor = booking.predecessor.getD 0 := by
  rw [Operations.word, holds.operationText_eq found, Booking.value]
  cases stored : booking.predecessor with
  | none => rfl
  | some id => simp [Text.readU32?_decimal (booking.predecessor_le id stored)]

theorem operationProposal_eq : Operations.word record index .proposal = booking.proposalId := by
  simp [Operations.word, holds.operationText_eq found, Booking.value,
    Text.readU32?_decimal booking.proposalId_le]

theorem operationAt?_eq : Operations.at? record index = some (booking.operation index) := by
  simp [Operations.at?, holds.operationText_eq found, Booking.value, Booking.operation,
    Text.readU32?_decimal booking.id_le, holds.operationProposal_eq found,
    holds.readyAt_eq found, holds.operationState_eq found, holds.predecessor_eq found]

end Booking

/-- Only an operation has a state stored. -/
theorem exists_booking {index : Nat} (stored : Operations.storedState record index ≠ .unset) :
    ∃ booking, ledger.bookings[index]? = some booking := by
  cases found : ledger.bookings[index]? with
  | some booking => exact ⟨booking, rfl⟩
  | none =>
      refine absurd ?_ stored
      rw [Operations.storedState, holds.operationField?_eq, found]
      rfl

/-- The operation that is found for a proposal is one of its operations. -/
theorem indexOfProposal_eq_ok {proposalId index : Nat}
    (done : Operations.indexOfProposal record proposalId = .ok index) :
    ∃ booking, ledger.bookings[index]? = some booking ∧ booking.proposalId = proposalId := by
  have stored := (Operations.indexOfProposal_eq_ok done).2.1
  rw [holds.operationField?_eq] at stored
  rcases Option.bind_eq_some_iff.mp stored with ⟨booking, found, value⟩
  exact ⟨booking, found, Text.decimal_injective (Option.some.inj value)⟩

theorem operationCount_eq (fits : ledger.bookings.length ≤ maxU8) :
    Operations.count record = ledger.bookings.length :=
  Record.readCount_eq fits (holds.read?_eq .operationCount)

/-- The last operation of a proposal is the one that is found for it. -/
theorem indexOfProposal_of_last (fits : ledger.bookings.length ≤ maxU8) {index : Nat}
    {booking : Booking} (found : ledger.bookings[index]? = some booking)
    (last : ∀ later other, index < later → ledger.bookings[later]? = some other →
      other.proposalId ≠ booking.proposalId) :
    Operations.indexOfProposal record booking.proposalId = .ok index := by
  have stored : Operations.field? record index .proposal =
      some (Text.decimal booking.proposalId) := holds.operationText_eq found _
  have inside : index < Operations.count record := by
    rw [holds.operationCount_eq fits]
    exact (List.getElem?_eq_some_iff.mp found).1
  cases result : Operations.indexOfProposal record booking.proposalId with
  | ok place =>
      rcases holds.indexOfProposal_eq_ok result with ⟨other, otherFound, same⟩
      have skipped := (Operations.indexOfProposal_eq_ok result).2.2 index
      rcases Nat.lt_trichotomy place index with before | equal | behind
      · exact absurd stored (skipped before inside)
      · rw [equal]
      · exact absurd same (last place other behind otherFound)
  | error fault =>
      unfold Operations.indexOfProposal at result
      dsimp only at result
      split at result
      · cases result
      · rename_i missing
        have listed : index ∈ (List.range (Operations.count record)).reverse := by
          simpa using inside
        refine absurd ?_ (List.find?_eq_none.mp missing index listed)
        rw [stored]
        exact beq_self_eq_true _

theorem operationIndexOf_eq_ok (fits : ledger.bookings.length ≤ maxU8) {id index : Nat} :
    Operations.indexOf record id = .ok index ↔ ledger.operationIndexOf id = some index := by
  have test : (fun index => Operations.field? record index .id == some (Text.decimal id)) =
      fun index => ledger.bookings[index]?.any fun booking => booking.id = id := by
    funext index
    rw [holds.operationField?_eq]
    cases ledger.bookings[index]? with
    | none => rfl
    | some booking =>
        simp [Booking.value, Text.decimal_injective.eq_iff, Bool.beq_eq_decide_eq]
  rw [Operations.indexOf, holds.operationCount_eq fits, test, find?_range,
    Ledger.operationIndexOf]
  split <;> rename_i result <;> rw [result] <;> simp

theorem operationList_eq (fits : ledger.bookings.length ≤ maxU8) :
    Operations.list record =
      ledger.bookings.mapIdx fun index booking => booking.operation index := by
  have at? : Operations.at? record = fun index =>
      ledger.bookings[index]?.map fun booking => booking.operation index := by
    funext index
    cases found : ledger.bookings[index]? with
    | none => simp [Operations.at?, holds.operationField?_eq, found]
    | some booking => rw [holds.operationAt?_eq found, Option.map_some]
  rw [Operations.list, holds.operationCount_eq fits, at?, filterMap_range]

theorem mem_operationList_iff (fits : ledger.bookings.length ≤ maxU8) {operation : Operation} :
    operation ∈ Operations.list record ↔
      ∃ (index : Nat) (booking : Booking), ledger.bookings[index]? = some booking ∧
        booking.operation index = operation := by
  rw [holds.operationList_eq fits, List.mem_mapIdx]
  constructor
  · rintro ⟨index, inside, rfl⟩
    exact ⟨index, _, List.getElem?_eq_getElem inside, rfl⟩
  · rintro ⟨index, booking, found, rfl⟩
    rcases List.getElem?_eq_some_iff.mp found with ⟨inside, rfl⟩
    exact ⟨index, inside, rfl⟩

/-- The stored states of operations are told by the bookings alone. -/
theorem map_storedState_filter (fits : ledger.bookings.length ≤ maxU8) (id : Nat) :
    ((Operations.list record).filter fun operation => operation.proposalId = id).map
        Operation.storedState =
      (ledger.bookings.filter fun booking => booking.proposalId = id).map Booking.state := by
  rw [holds.operationList_eq fits]
  exact filter_mapIdx ledger.bookings (fun index booking => booking.operation index)
    (fun _ _ => rfl) fun _ _ => rfl

/-! ## Delegations -/

theorem delegateOf_eq (account : Account) :
    Delegations.delegateOf record account = ledger.delegateOf account := by
  rw [Delegations.delegateOf, Ledger.delegateOf, holds.read?_eq, Ledger.contents]
  cases stored : ledger.delegate account with
  | none => rfl
  | some target => simp [Account.ofHex?_hex (ledger.delegate_size account target stored)]

end Represents

end LedgerGovernance
