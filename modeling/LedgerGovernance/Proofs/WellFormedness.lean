import LedgerGovernance.Proofs.Ledger.Neatness
import LedgerGovernance.Proofs.Ledger.Writing
import LedgerGovernance.Proofs.Runs

/-! The text has no schema; its form is what all who write it keep to. A record that has
grown under one parameter set is neat, fits, and holds as many members, proposals and
operations as it counts, each with all its entries and within its limit. -/

namespace LedgerGovernance

/-! ## Entries that decode -/

/-- Whether a text is a value of a field. -/
def ProposalField.decodes (text : Text) : ProposalField → Bool
  | id | voteStart | voteEnd | description => (Text.readU32? text).isSome
  | proposer => (Account.ofHex? text).isSome
  | state => ((Text.readCount? text).bind ProposalState.ofCode?).isSome
  | inFavor | against | abstain => (Text.readU64? text).isSome

def OperationField.decodes (text : Text) : OperationField → Bool
  | id | proposal | ready | predecessor => (Text.readU32? text).isSome
  | state => ((Text.readCount? text).bind OperationState.ofCode?).isSome

theorem Motion.decodes_value (motion : Motion) (field : ProposalField) :
    field.decodes (motion.value field) = true := by
  cases field with
  | id => simp [ProposalField.decodes, value, Text.readU32?_decimal motion.id_le]
  | voteStart => simp [ProposalField.decodes, value, Text.readU32?_decimal motion.voteStart_le]
  | voteEnd => simp [ProposalField.decodes, value, Text.readU32?_decimal motion.voteEnd_le]
  | description =>
      simp [ProposalField.decodes, value, Text.readU32?_decimal motion.description_le]
  | proposer => simp [ProposalField.decodes, value, Account.ofHex?_hex motion.proposer_size]
  | state =>
      have code_le : motion.state.code ≤ maxU8 := by cases motion.state <;> decide
      simp [ProposalField.decodes, value, Text.readCount?_decimal code_le]
  | inFavor | against | abstain =>
      simp [ProposalField.decodes, value, Text.readU64?_decimal (motion.tally_le _)]

theorem Booking.decodes_value {booking : Booking} {field : OperationField} {text : Text}
    (stored : booking.value field = some text) : field.decodes text = true := by
  cases field with
  | id =>
      cases stored
      simp [OperationField.decodes, Text.readU32?_decimal booking.id_le]
  | proposal =>
      cases stored
      simp [OperationField.decodes, Text.readU32?_decimal booking.proposalId_le]
  | ready =>
      cases stored
      simp [OperationField.decodes, Text.readU32?_decimal booking.readyAt_le]
  | state =>
      have code_le : booking.state.code ≤ maxU8 := by cases booking.state <;> decide
      cases stored
      simp [OperationField.decodes, Text.readCount?_decimal code_le]
  | predecessor =>
      rcases Option.map_eq_some_iff.mp stored with ⟨id, idEq, rfl⟩
      simp [OperationField.decodes, Text.readU32?_decimal (booking.predecessor_le id idEq)]

/-! ## Well-formed records -/

namespace Record

/-- The entries of a family stand under the indices below a count, and under no others, and
each of them decodes. -/
structure Filled (record : Text) (family : Nat → Key) (count : Nat) (decodes : Text → Bool) :
    Prop where
  below : ∀ index < count, ∃ text, read? record (family index) = some text ∧
    decodes text = true
  above : ∀ index, count ≤ index → read? record (family index) = none

structure WellFormed (params : Params) (record : Text) : Prop where
  splitOn_eq : record = [] ∨ record.splitOn ';' = (Draft.ofRecord record).entries
  printable : ∀ entry ∈ (Draft.ofRecord record).entries, entry ≠ [] ∧
    (∀ character ∈ entry, ' ' ≤ character ∧ character ≤ '~') ∧ entry.count '=' = 1
  known : ∀ text ∈ (Draft.ofRecord record).keys, ∃ key : Key, key.text = text
  keys_nodup : (Draft.ofRecord record).keys.Nodup
  size_le : Text.utf8Size record ≤ params.recordCapacity
  members : Filled record .member (Members.count record) fun text =>
    (Members.parse? 0 text).isSome
  proposals : ∀ field, Filled record (.proposal · field) (Proposals.count record) field.decodes
  operations : ∀ field, field ≠ .predecessor →
    Filled record (.operation · field) (Operations.count record) field.decodes
  alone : ∀ index, read? record (.operation index .predecessor) = none
  accounts_nodup : ((Members.list record).map Member.account).Nodup
  members_le : Members.count record ≤ params.maxMembers
  proposals_le : Proposals.count record ≤ params.maxProposals
  operations_le : Operations.count record ≤ Proposals.count record

/-- What stands under the indices of a list fills the family up to its length. -/
theorem filled_of_getElem? {record : Text} {family : Nat → Key} {decodes : Text → Bool}
    {α : Type} {list : List α} {value : α → Text}
    (read : ∀ index, read? record (family index) = list[index]?.map value)
    (all : ∀ element ∈ list, decodes (value element) = true) :
    Filled record family list.length decodes where
  below index inside := by
    have found := List.getElem?_eq_getElem inside
    exact ⟨value list[index], by rw [read, found, Option.map_some],
      all _ (List.getElem_mem inside)⟩
  above index outside := by
    rw [read, List.getElem?_eq_none outside, Option.map_none]

end Record

/-! ## Limits -/

/-- A ledger within the limits of its parameters. -/
structure Ledger.Within (params : Params) (ledger : Ledger) : Prop where
  seats_le : ledger.seats.length ≤ params.maxMembers
  motions_le : ledger.motions.length ≤ params.maxProposals

namespace Ledger

variable {params : Params} {before after : Ledger}

theorem Seated.within {account : Account} {power : Int} {mask : Number} {seat : Seat}
    (seated : before.Seated params account power mask seat after)
    (within : before.Within params) : after.Within params where
  seats_le := Nat.le_trans seated.length_le (Nat.max_le.mpr ⟨within.seats_le, Nat.le_refl _⟩)
  motions_le := by
    cases seated.entered with
    | replaced | added => exact within.motions_le

theorem Step.within {caller : Account} {now : Number} {action : Action}
    (step : Step params caller now before action after) (within : before.Within params) :
    after.Within params := by
  cases step with
  | registered | snapshotStored | delegated | snapshotTaken | intended => exact ⟨within.1, within.2⟩
  | entered _ seated => exact seated.within within
  | proposed _ _ _ limit =>
      refine ⟨within.seats_le, ?_⟩
      rw [addMotion, List.length_append, List.length_singleton]
      exact limit
  | voted | canceled | queued | executed =>
      refine ⟨within.seats_le, Nat.le_trans (Nat.le_of_eq ?_) within.motions_le⟩
      exact List.length_set

end Ledger

/-! ## Growth -/

/-- A record that has grown from the empty one under one parameter set, by entering members
and by moves. -/
inductive Grown (params : Params) : Text → Prop
  | empty : Grown params []
  | entered {record next : Text} {account : Account} {power : Int} {mask : Number}
      (grown : Grown params record)
      (done : Members.set params record account power mask = .ok next) : Grown params next
  | moved {record : Text} (grown : Grown params record) (move : Move) :
      Grown params (move.next params record)

theorem Grown.recordAfter {params : Params} {start : Text} (grown : Grown params start)
    (moves : List Move) : Grown params (recordAfter params start moves) := by
  induction moves generalizing start with
  | nil => exact grown
  | cons move moves induction => exact induction (grown.moved move)

/-- What each operation keeps of a record and the ledger that it represents. -/
structure Kept (params : Params) (record : Text) (ledger : Ledger) : Prop where
  holds : Represents record ledger
  coherent : ledger.Coherent
  within : ledger.Within params
  neat : Record.Neat record
  tame : Record.Tame record
  size_le : Text.utf8Size record ≤ params.recordCapacity

theorem Move.next_eq {params : Params} {record : Text} {move : Move} {receipt : Receipt}
    (done : move.outcome params record = .ok receipt) :
    move.next params record = receipt.record := by
  rw [next, done]

/-- No move spoils a neat record. -/
theorem Represents.neat_next {params : Params} {record : Text} {ledger : Ledger}
    (holds : Represents record ledger) (coherent : ledger.Coherent) (neat : Record.Neat record)
    (move : Move) : Record.Neat (move.next params record) := by
  rcases holds.next coherent move with ⟨fault, -, same⟩ | ⟨receipt, after, done, -⟩
  · rw [same]
    exact neat
  · have effect := Action.effect_of_apply done
    rw [← Move.next_eq done] at effect
    exact holds.neat_of_effect neat coherent effect

theorem Grown.kept {params : Params} {record : Text} (grown : Grown params record) :
    ∃ ledger, Kept params record ledger := by
  induction grown with
  | empty =>
      exact ⟨.empty, represents_empty, ⟨List.nodup_nil, nofun⟩,
        ⟨Nat.zero_le _, Nat.zero_le _⟩, Record.neat_nil, .nil, Nat.zero_le _⟩
  | entered _ done induction =>
      rcases induction with ⟨ledger, kept⟩
      rcases kept.holds.set done with ⟨seat, after, seated, holds⟩
      rcases Members.set_eq_ok done with ⟨amount, roles, -, -, -, entered⟩
      have written := entered.written
      exact ⟨after, holds, kept.coherent.entered seated.entered, seated.within kept.within,
        kept.holds.neat_of_entered kept.neat entered,
        kept.tame.written (written.mono fun _ _ writes => writes.2), written.encoded.fits⟩
  | @moved record _ move induction =>
      rcases induction with ⟨ledger, kept⟩
      rcases kept.holds.next kept.coherent move with
        ⟨fault, -, same⟩ | ⟨receipt, after, done, holds, coherent, step⟩
      · rw [same]
        exact ⟨ledger, kept⟩
      · have effect := Action.effect_of_apply done
        rw [← Move.next_eq done] at effect
        have neat : Record.Neat (move.next params record) :=
          kept.holds.neat_next kept.coherent kept.neat move
        have within := step.within kept.within
        rcases effect.admitted with same | written
        · rw [same] at holds neat ⊢
          exact ⟨after, holds, coherent, within, neat, kept.tame, kept.size_le⟩
        · exact ⟨after, holds, coherent, within, neat, kept.tame.written written,
            written.encoded.fits⟩

/-- Members are entered neatly, whatever the parameters. -/
theorem Seeded.neat {start : Text} (seeded : Seeded start) : Record.Neat start := by
  induction seeded with
  | empty => exact Record.neat_nil
  | entered seeded done induction =>
      rcases seeded.represented with ⟨ledger, holds, -⟩
      rcases Members.set_eq_ok done with ⟨amount, roles, -, -, -, entered⟩
      exact holds.neat_of_entered induction entered

theorem Seeded.run_neat (params : Params) {start : Text} (seeded : Seeded start)
    (moves : List Move) : Record.Neat (recordAfter params start moves) := by
  induction moves using List.reverseRec with
  | nil => exact seeded.neat
  | append_singleton moves move induction =>
      rcases seeded.run_represented params moves with ⟨ledger, holds, coherent⟩
      rw [recordAfter_append_singleton]
      exact holds.neat_next coherent induction move

namespace Kept

variable {params : Params} {record : Text} {ledger : Ledger} (kept : Kept params record ledger)

include kept

theorem operations_filled {field : OperationField} (present : field ≠ .predecessor) :
    Record.Filled record (.operation · field) ledger.bookings.length field.decodes := by
  have stored : ∀ booking : Booking, ∃ text, booking.value field = some text := by
    intro booking
    cases field <;> first | exact absurd rfl present | exact ⟨_, rfl⟩
  have read : ∀ index, Record.read? record (.operation index field) =
      ledger.bookings[index]?.map fun booking => (booking.value field).getD [] := by
    intro index
    rw [kept.holds.read?_eq, Ledger.contents]
    cases ledger.bookings[index]? with
    | none => rfl
    | some booking =>
        rcases stored booking with ⟨text, textEq⟩
        simp [textEq]
  refine Record.filled_of_getElem? read fun booking _ => ?_
  rcases stored booking with ⟨text, textEq⟩
  rw [textEq, Option.getD_some]
  exact Booking.decodes_value textEq

theorem wellFormed : Record.WellFormed params record := by
  have holds := kept.holds
  have members := holds.memberCount_eq
  have proposals := holds.proposalCount_eq
  have operations := holds.operationCount_eq kept.coherent.bookings_le
  rcases kept.neat.exists_keys_eq with ⟨keys, keysEq, keysNodup⟩
  constructor
  case splitOn_eq => exact kept.neat.splitOn_eq
  case printable => exact kept.neat.printable
  case known =>
    intro text member
    rcases List.mem_map.mp (keysEq ▸ member) with ⟨key, -, same⟩
    exact ⟨key, same⟩
  case keys_nodup =>
    rw [keysEq]
    exact keysNodup.map Key.text_injective
  case size_le => exact kept.size_le
  case members =>
    rw [members]
    exact Record.filled_of_getElem? (fun index => holds.read?_eq (.member index))
      fun seat _ => by rw [Seat.parse?_text]; rfl
  case proposals =>
    intro field
    rw [proposals]
    exact Record.filled_of_getElem? (fun index => holds.read?_eq (.proposal index field))
      fun motion _ => motion.decodes_value field
  case operations =>
    intro field present
    rw [operations]
    exact kept.operations_filled present
  case alone => exact kept.tame.alone
  case accounts_nodup => exact holds.accounts_nodup
  case members_le => exact members ▸ kept.within.seats_le
  case proposals_le => exact proposals ▸ kept.within.motions_le
  case operations_le =>
    rw [operations, proposals]
    exact kept.coherent.bookings_length_le

end Kept

/-- Every record that has grown under one parameter set is well formed, and on any text at
all an action leaves the record as it is or writes one that fits. -/
theorem records_well_formed (params : Params) :
    (∀ record, Grown params record → Record.WellFormed params record) ∧
      ∀ (record : Text) (caller : Account) (now : Number) (action : Action) (receipt : Receipt),
        action.apply params record caller now = .ok receipt →
          receipt.record = record ∨ Text.utf8Size receipt.record ≤ params.recordCapacity := by
  refine ⟨fun record grown => ?_, fun record caller now action receipt done => ?_⟩
  · rcases grown.kept with ⟨ledger, kept⟩
    exact kept.wellFormed
  · exact (Action.effect_of_apply done).admitted.imp_right fun written => written.encoded.fits

/-- The sample counts what it holds; and Bob registers himself on a text of junk. -/
theorem sample_well_formed :
    let final := recordAfter Sample.params Sample.start Sample.moves
    let junk : Text := "junk;=;member_00=x;;".toList
    let entry : Text := "member_0=0202020202020202020202020202020202020202:100:0".toList
    let joined : Text := "junk;=;member_00=x;member_count=1;".toList ++ entry
    Grown Sample.params final ∧ Record.WellFormed Sample.params final ∧
      Members.count final = 2 ∧ Proposals.count final = 1 ∧ Operations.count final = 1 ∧
      Action.selfRegister.apply Sample.params junk Sample.bob 90 = .ok { record := joined } ∧
      Text.utf8Size joined ≤ 4096 := by
  have grown := Grown.recordAfter (.entered .empty Sample.entered) Sample.moves
  have done : Action.selfRegister.apply Sample.params "junk;=;member_00=x;;".toList Sample.bob
      90 = .ok { record := "junk;=;member_00=x;member_count=1;".toList ++
        "member_0=0202020202020202020202020202020202020202:100:0".toList } := by
    decide +kernel
  have wellFormed := records_well_formed Sample.params
  have counts : Members.count (recordAfter Sample.params Sample.start Sample.moves) = 2 ∧
      Proposals.count (recordAfter Sample.params Sample.start Sample.moves) = 1 ∧
      Operations.count (recordAfter Sample.params Sample.start Sample.moves) = 1 := by
    decide +kernel
  exact ⟨grown, wellFormed.1 _ grown, counts.1, counts.2.1, counts.2.2, done,
    (wellFormed.2 _ _ _ _ _ done).resolve_left (by decide +kernel)⟩

end LedgerGovernance
