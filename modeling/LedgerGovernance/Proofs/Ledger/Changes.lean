import LedgerGovernance.Proofs.Ledger.Reading
import Mathlib.Data.List.Nodup

/-! The changes of a ledger, each with the change of the record that carries it out. A
change of a list leaves all other entries of the record alone, so a lemma here compares
the two sides key by key. -/

namespace LedgerGovernance

theorem nodup_append_singleton {α : Type} {list : List α} {last : α}
    (nodup : list.Nodup) (fresh : last ∉ list) : (list ++ [last]).Nodup := by
  rw [← List.concat_eq_append]
  exact nodup.concat fresh

theorem getElem?_append_singleton {α : Type} (list : List α) (last : α) (index : Nat) :
    (list ++ [last])[index]? = if index = list.length then some last else list[index]? := by
  rw [List.getElem?_append]
  by_cases inside : index < list.length
  · rw [if_pos inside, if_neg (Nat.ne_of_lt inside)]
  · rw [if_neg inside]
    by_cases here : index = list.length
    · simp [here]
    · have beyond : [last].length ≤ index - list.length := by
        rw [List.length_singleton]
        omega
      rw [if_neg here, List.getElem?_eq_none beyond,
        List.getElem?_eq_none (Nat.le_of_not_lt inside)]

theorem getElem?_set_same {α : Type} {list : List α} {index : Nat} {old : α}
    (found : list[index]? = some old) (new : α) : (list.set index new)[index]? = some new :=
  List.getElem?_set_self (List.getElem?_eq_some_iff.mp found).1

theorem getElem?_append_of_some {α : Type} {list : List α} {index : Nat} {entry : α}
    (found : list[index]? = some entry) (more : List α) : (list ++ more)[index]? = some entry := by
  rw [List.getElem?_append_left (List.getElem?_eq_some_iff.mp found).1, found]

/-- Where one element gives way to another, each element stays or is the one that went. -/
theorem exists_getElem?_set {α : Type} {list : List α} {place index : Nat} {old entry : α}
    (placed : list[place]? = some old) (found : list[index]? = some entry) (new : α) :
    ∃ later, (list.set place new)[index]? = some later ∧
      (later = entry ∨ place = index ∧ entry = old ∧ later = new) := by
  by_cases here : place = index
  · subst here
    cases placed.symm.trans found
    exact ⟨new, getElem?_set_same found new, .inr ⟨rfl, rfl, rfl⟩⟩
  · exact ⟨entry, by rw [List.getElem?_set_ne here, found], .inl rfl⟩

/-- Where one element gives way to another, each element was there or is the one that came. -/
theorem getElem?_set_cases {α : Type} {list : List α} {place index : Nat} {new entry : α}
    (found : (list.set place new)[index]? = some entry) :
    list[index]? = some entry ∨ place = index ∧ entry = new := by
  by_cases here : place = index
  · subst here
    have inside := (List.getElem?_eq_some_iff.mp found).1
    rw [List.length_set] at inside
    rw [List.getElem?_set_self inside] at found
    exact .inr ⟨rfl, (Option.some.inj found).symm⟩
  · rw [List.getElem?_set_ne here] at found
    exact .inl found

/-- Where an element gives way to one with the same image, the images stay. -/
theorem map_set_of_same {α β : Type} {image : α → β} {list : List α} {index : Nat} {new : α}
    (same : ∀ old ∈ list[index]?, image old = image new) :
    (list.set index new).map image = list.map image := by
  apply List.ext_getElem?
  intro other
  by_cases here : index = other
  · subst here
    cases found : list[index]? with
    | none => rw [List.set_eq_of_length_le (List.getElem?_eq_none_iff.mp found)]
    | some old => simp [List.getElem?_set_self', found, same old found]
  · simp [List.getElem?_set_ne here]

/-! ## Members -/

namespace Ledger

def setSeat (ledger : Ledger) (index : Nat) (seat : Seat)
    (same : ∀ old ∈ ledger.seats[index]?, old.account = seat.account) : Ledger :=
  { ledger with
    seats := ledger.seats.set index seat
    seats_le := (List.length_set).symm ▸ ledger.seats_le
    accounts_nodup := (map_set_of_same same).symm ▸ ledger.accounts_nodup }

def addSeat (ledger : Ledger) (seat : Seat) (room : ledger.seats.length < maxU8)
    (fresh : seat.account ∉ ledger.seats.map Seat.account) : Ledger :=
  { ledger with
    seats := ledger.seats ++ [seat]
    seats_le := by
      rw [List.length_append]
      exact room
    accounts_nodup := by
      rw [List.map_append]
      exact nodup_append_singleton ledger.accounts_nodup fresh }

/-- A member is entered over its own entry or behind all others. -/
inductive Entered (before : Ledger) (seat : Seat) : Ledger → Prop
  | replaced (index : Nat) (old : Seat) (found : before.seats[index]? = some old)
      (same : ∀ old ∈ before.seats[index]?, old.account = seat.account) :
      Entered before seat (before.setSeat index seat same)
  | added (room : before.seats.length < maxU8)
      (fresh : seat.account ∉ before.seats.map Seat.account) :
      Entered before seat (before.addSeat seat room fresh)

/-- A member is entered with a power and a mask of roles, and among no more members than
the parameters admit. -/
structure Seated (params : Params) (before : Ledger) (account : Account) (power : Int)
    (mask : Number) (seat : Seat) (after : Ledger) : Prop where
  account_eq : seat.account = account
  power_eq : Amount.u64? power = some seat.votingPower
  roles_eq : roleMask? mask = some seat.roles
  entered : before.Entered seat after
  length_le : after.seats.length ≤ max before.seats.length params.maxMembers

end Ledger

/-! ## Proposals and operations -/

namespace Motion

def withState (motion : Motion) (state : ProposalState) : Motion :=
  { motion with state }

def withVote (motion : Motion) (vote : Vote) (room : motion.votes.length ≤ maxU8)
    (size : vote.voter.length = Account.size)
    (fresh : vote.voter ∉ motion.votes.map Vote.voter)
    (fits : Vote.tally vote.support motion.votes + vote.weight ≤ maxU64) : Motion :=
  { motion with
    votes := motion.votes ++ [vote]
    votes_le := by
      rw [List.length_append]
      exact Nat.succ_le_succ room
    voter_size := by
      intro other member
      rcases List.mem_append.mp member with member | member
      · exact motion.voter_size other member
      · rw [List.mem_singleton.mp member]
        exact size
    voters_nodup := by
      rw [List.map_append]
      exact nodup_append_singleton motion.voters_nodup fresh
    tally_le := by
      intro support
      rw [Vote.tally_append, Vote.tally_singleton]
      by_cases same : vote.support = support
      · rw [if_pos same, ← same]
        exact fits
      · rw [if_neg same]
        exact motion.tally_le support }

end Motion

namespace Booking

def withState (booking : Booking) (state : OperationState) : Booking :=
  { booking with state }

end Booking

namespace Ledger

def setMotion (ledger : Ledger) (index : Nat) (motion : Motion) : Ledger :=
  { ledger with
    motions := ledger.motions.set index motion
    motions_le := (List.length_set).symm ▸ ledger.motions_le }

def addMotion (ledger : Ledger) (motion : Motion) (room : ledger.motions.length < maxU8) :
    Ledger :=
  { ledger with
    motions := ledger.motions ++ [motion]
    motions_le := by
      rw [List.length_append]
      exact room }

def setBooking (ledger : Ledger) (index : Nat) (booking : Booking) : Ledger :=
  { ledger with bookings := ledger.bookings.set index booking }

def addBooking (ledger : Ledger) (booking : Booking) : Ledger :=
  { ledger with bookings := ledger.bookings ++ [booking] }

/-! ## Single entries -/

def setDelegate (ledger : Ledger) (account : Account) (target : Option Account)
    (size : ∀ other ∈ target, other.length = Account.size) : Ledger :=
  { ledger with
    delegate := Function.update ledger.delegate account target
    delegate_size := by
      intro other
      by_cases same : other = account
      · subst same
        simpa using size
      · rw [Function.update_of_ne same]
        exact ledger.delegate_size other }

def setSnapshot (ledger : Ledger) (id : Nat) (account : Account) (power : Nat)
    (fits : power ≤ maxU64) : Ledger :=
  { ledger with
    snapshot := Function.update ledger.snapshot id
      (Function.update (ledger.snapshot id) account (some power))
    snapshot_le := by
      intro otherId other
      by_cases sameId : otherId = id
      · subst sameId
        by_cases same : other = account
        · subst same
          simpa using fits
        · simpa [same] using ledger.snapshot_le otherId other
      · rw [Function.update_of_ne sameId]
        exact ledger.snapshot_le otherId other }

def setIntent (ledger : Ledger) (id : Nat) (account : Account) (support : VoteSupport) :
    Ledger :=
  { ledger with
    intent := Function.update ledger.intent id
      (Function.update (ledger.intent id) account (some support)) }

def setLock (ledger : Ledger) (locked : Bool) : Ledger :=
  { ledger with lock := some locked }

end Ledger

/-! ## Records -/

namespace Represents

open Record (appended read?)

variable {record next : Text} {ledger : Ledger} (holds : Represents record ledger)

include holds

private theorem of_update {after : Ledger} {key : Key} {value : Option Text}
    (changed : read? next = Function.update (read? record) key value)
    (equal : Function.update ledger.contents key value = after.contents) :
    Represents next after := by
  rw [Represents, changed, holds, equal]

private theorem of_appended {after : Ledger} {edited : Key} {value : Option Text}
    {pairs : List (Key × Text)}
    (changed : read? next = appended (Function.update (read? record) edited value) pairs)
    (equal : ∀ key, (Function.update ledger.contents edited value key).or (pairs.lookup key) =
      after.contents key) : Represents next after := by
  rw [Represents, changed, holds]
  exact funext equal

theorem setSeat {index : Nat} {seat old : Seat} (found : ledger.seats[index]? = some old)
    (same : ∀ old ∈ ledger.seats[index]?, old.account = seat.account)
    (changed : read? next =
      Function.update (read? record) (.member index) (some seat.text)) :
    Represents next (ledger.setSeat index seat same) := by
  apply holds.of_update changed
  funext key
  cases key with
  | member other =>
      by_cases here : other = index
      · subst here
        simp [Ledger.contents, Ledger.setSeat, List.getElem?_set_self', found]
      · have apart : index ≠ other := fun equal => here equal.symm
        simp [Ledger.contents, Ledger.setSeat, here, List.getElem?_set_ne apart]
  | memberCount => simp [Ledger.contents, Ledger.setSeat]
  | _ => rw [Function.update_of_ne (by simp)]; rfl

theorem addSeat {seat : Seat} (room : ledger.seats.length < maxU8)
    (fresh : seat.account ∉ ledger.seats.map Seat.account)
    (changed : read? next = appended (Function.update (read? record) .memberCount none) [
      (.memberCount, Text.decimal (ledger.seats.length + 1)),
      (.member ledger.seats.length, seat.text)]) :
    Represents next (ledger.addSeat seat room fresh) := by
  apply holds.of_appended changed
  intro key
  cases key with
  | member index =>
      by_cases here : index = ledger.seats.length <;>
        simp [Ledger.contents, Ledger.addSeat, Record.lookup_cons_eq_ite,
          getElem?_append_singleton, here]
  | memberCount => simp [Ledger.contents, Ledger.addSeat, Ledger.counter]
  | _ => simp [Ledger.contents, Ledger.addSeat, Record.lookup_cons_eq_ite]

/-! ### Proposals and their votes -/

theorem setState {index : Nat} {motion : Motion} {state : ProposalState}
    (found : ledger.motions[index]? = some motion)
    (changed : read? next = Function.update (read? record) (.proposal index .state)
      (some (Text.decimal state.code))) :
    Represents next (ledger.setMotion index (motion.withState state)) := by
  apply holds.of_update changed
  funext key
  cases key with
  | proposal other field =>
      by_cases here : other = index
      · subst here
        cases field <;>
          simp [Ledger.contents, Ledger.setMotion, List.getElem?_set_self', found,
            Motion.withState, Motion.value]
      · have apart : index ≠ other := fun equal => here equal.symm
        simp [Ledger.contents, Ledger.setMotion, here, List.getElem?_set_ne apart]
  | vote voted vote =>
      by_cases here : voted = index
      · subst here
        simp [Ledger.contents, Ledger.setMotion, List.getElem?_set_self', found,
          Motion.withState]
      · have apart : index ≠ voted := fun equal => here equal.symm
        simp [Ledger.contents, Ledger.setMotion, List.getElem?_set_ne apart]
  | proposalCount => simp [Ledger.contents, Ledger.setMotion]
  | _ => rw [Function.update_of_ne (by simp)]; rfl

theorem addMotion {motion : Motion} (room : ledger.motions.length < maxU8)
    (pending : motion.state = .pending) (unvoted : motion.votes = [])
    (changed : read? next = appended (Function.update (read? record) .proposalCount none)
      (Proposals.opening ledger.motions.length
        (Proposals.newField motion.id (Text.hex motion.proposer) motion.voteStart
          motion.voteEnd motion.description))) :
    Represents next (ledger.addMotion motion room) := by
  apply holds.of_appended changed
  intro key
  cases key with
  | proposal index field =>
      by_cases here : index = ledger.motions.length <;> cases field <;>
        simp [Ledger.contents, Ledger.addMotion, Record.lookup_cons_eq_ite,
          getElem?_append_singleton, here, Proposals.opening, Proposals.newField,
          ProposalField.all, Motion.value, pending, unvoted]
  | vote voted index =>
      by_cases here : voted = ledger.motions.length <;>
        simp [Ledger.contents, Ledger.addMotion, Record.lookup_cons_eq_ite,
          getElem?_append_singleton, here, Proposals.opening, ProposalField.all, unvoted]
  | proposalCount => simp [Ledger.contents, Ledger.addMotion, Ledger.counter,
      Proposals.opening]
  | _ => simp [Ledger.contents, Ledger.addMotion, Record.lookup_cons_eq_ite,
      Proposals.opening, ProposalField.all]

theorem addVote {index : Nat} {motion : Motion} (vote : Vote)
    (found : ledger.motions[index]? = some motion) (room : motion.votes.length ≤ maxU8)
    (size : vote.voter.length = Account.size)
    (fresh : vote.voter ∉ motion.votes.map Vote.voter)
    (fits : Vote.tally vote.support motion.votes + vote.weight ≤ maxU64)
    (changed : read? next = appended
      (Function.update (read? record) (.proposal index (Ballots.tallyField vote.support))
        (some (Text.decimal (Vote.tally vote.support motion.votes + vote.weight))))
      [(.vote index motion.votes.length, vote.text)]) :
    Represents next (ledger.setMotion index (motion.withVote vote room size fresh fits)) := by
  apply holds.of_appended changed
  intro key
  cases key with
  | proposal other field =>
      by_cases here : other = index
      · subst here
        cases supportEq : vote.support <;> cases field <;>
          simp [Ledger.contents, Ledger.setMotion, List.getElem?_set_self', found,
            Motion.withVote, Motion.value, Vote.tally_append, Vote.tally_singleton,
            Ballots.tallyField, supportEq]
      · have apart : index ≠ other := fun equal => here equal.symm
        simp [Ledger.contents, Ledger.setMotion, here, List.getElem?_set_ne apart,
          Record.lookup_cons_eq_ite]
  | vote voted place =>
      by_cases here : voted = index
      · subst here
        by_cases last : place = motion.votes.length <;>
          simp [Ledger.contents, Ledger.setMotion, List.getElem?_set_self', found,
            Motion.withVote, Record.lookup_cons_eq_ite, getElem?_append_singleton, last]
      · have apart : index ≠ voted := fun equal => here equal.symm
        simp [Ledger.contents, Ledger.setMotion, here, List.getElem?_set_ne apart,
          Record.lookup_cons_eq_ite]
  | proposalCount => simp [Ledger.contents, Ledger.setMotion, Record.lookup_cons_eq_ite]
  | _ =>
      rw [Function.update_of_ne (by simp)]
      simp [Ledger.contents, Ledger.setMotion, Record.lookup_cons_eq_ite]

/-! ### Operations -/

theorem addBooking (booking : Booking) (pending : booking.state = .pending)
    (changed : read? next = appended (Function.update (read? record) .operationCount none)
      (Operations.opening ledger.bookings.length
        (Operations.newField booking.id booking.proposalId booking.readyAt
          booking.predecessor))) :
    Represents next (ledger.addBooking booking) := by
  apply holds.of_appended changed
  intro key
  cases key with
  | operation index field =>
      by_cases here : index = ledger.bookings.length <;> cases field <;>
        cases predecessorEq : booking.predecessor <;>
          simp [Ledger.contents, Ledger.addBooking, Record.lookup_cons_eq_ite,
            getElem?_append_singleton, here, Operations.opening, Operations.newField,
            OperationField.all, Booking.value, pending, predecessorEq]
  | operationCount => simp [Ledger.contents, Ledger.addBooking, Ledger.counter,
      Operations.opening]
  | _ =>
      cases booking.predecessor <;>
        simp [Ledger.contents, Ledger.addBooking, Record.lookup_cons_eq_ite,
          Operations.opening, Operations.newField, OperationField.all]

theorem setOperationState {index : Nat} {booking : Booking} {state : OperationState}
    (found : ledger.bookings[index]? = some booking)
    (changed : read? next = Function.update (read? record) (.operation index .state)
      (some (Text.decimal state.code))) :
    Represents next (ledger.setBooking index (booking.withState state)) := by
  apply holds.of_update changed
  funext key
  cases key with
  | operation other field =>
      by_cases here : other = index
      · subst here
        cases field <;>
          simp [Ledger.contents, Ledger.setBooking, List.getElem?_set_self', found,
            Booking.withState, Booking.value]
      · have apart : index ≠ other := fun equal => here equal.symm
        simp [Ledger.contents, Ledger.setBooking, here, List.getElem?_set_ne apart]
  | operationCount => simp [Ledger.contents, Ledger.setBooking]
  | _ => rw [Function.update_of_ne (by simp)]; rfl

/-! ### Single entries -/

theorem setDelegate {account : Account} {target : Option Account}
    (size : ∀ other ∈ target, other.length = Account.size)
    (changed : read? next = Function.update (read? record) (.delegate account)
      (target.map Text.hex)) :
    Represents next (ledger.setDelegate account target size) := by
  apply holds.of_update changed
  funext key
  cases key with
  | delegate other =>
      by_cases here : other = account <;>
        simp [Ledger.contents, Ledger.setDelegate, here]
  | _ => rw [Function.update_of_ne (by simp)]; rfl

theorem setSnapshot {id power : Nat} {account : Account} (fits : power ≤ maxU64)
    (changed : read? next = Function.update (read? record) (.snapshot id account)
      (some (Text.decimal power))) :
    Represents next (ledger.setSnapshot id account power fits) := by
  apply holds.of_update changed
  funext key
  cases key with
  | snapshot otherId other =>
      by_cases sameId : otherId = id <;> by_cases here : other = account <;>
        simp [Ledger.contents, Ledger.setSnapshot, sameId, here]
  | _ => rw [Function.update_of_ne (by simp)]; rfl

theorem setIntent {id : Nat} {account : Account} {support : VoteSupport}
    (changed : read? next = Function.update (read? record) (.intent id account)
      (some (Text.decimal support.code))) :
    Represents next (ledger.setIntent id account support) := by
  apply holds.of_update changed
  funext key
  cases key with
  | intent otherId other =>
      by_cases sameId : otherId = id <;> by_cases here : other = account <;>
        simp [Ledger.contents, Ledger.setIntent, sameId, here]
  | _ => rw [Function.update_of_ne (by simp)]; rfl

theorem setLock (locked : Bool)
    (changed : read? next = Function.update (read? record) .lock
      (some (Ledger.lockText locked))) : Represents next (ledger.setLock locked) := by
  apply holds.of_update changed
  funext key
  cases key with
  | lock => simp [Ledger.contents, Ledger.setLock]
  | _ => rw [Function.update_of_ne (by simp)]; rfl

end Represents

end LedgerGovernance
