import LedgerGovernance.Proofs.FrameLaw
import LedgerGovernance.Proofs.WellFormedness
import Mathlib.Data.List.TakeWhile

/-! History is only ever appended to. Votes, snapshots and intents, the ids and windows of
proposals, and the ids and ready times of operations are written once: an action that writes
under such a key finds nothing there, because it goes under the next index of a family or
looks first. So what is stored under such a key stays, whatever comes later. -/

namespace LedgerGovernance

open Record (read?)

/-! ## Keys of history -/

/-- The fields of a proposal that are settled when it is made. -/
def ProposalField.isFixed : ProposalField → Bool
  | id | proposer | voteStart | voteEnd | description => true
  | state | inFavor | against | abstain => false

/-- The fields of an operation that are settled when it is scheduled. -/
def OperationField.isFixed : OperationField → Bool
  | id | proposal | ready | predecessor => true
  | state => false

/-- The keys under which history stands. -/
def Key.isHistory : Key → Bool
  | vote .. | snapshot .. | intent .. => true
  | proposal _ field => field.isFixed
  | operation _ field => field.isFixed
  | proposalCount | memberCount | operationCount | lock | member _ | delegate _ => false

/-! ## One action -/

section

variable {params : Params} {record next : Text} {ledger : Ledger} {caller : Account}
  {now : Number} {action : Action}

theorem Members.not_mem_footprint {key : Key} (history : key.isHistory = true)
    (record : Text) (account : Account) : key ∉ footprint record account := by
  intro written
  unfold footprint at written
  split at written
  · cases List.mem_singleton.mp written
    cases history
  · simp only [List.mem_cons, List.not_mem_nil, or_false] at written
    rcases written with rfl | rfl <;> cases history

theorem Execution.not_mem_footprint {key : Key} (history : key.isHistory = true)
    (record : Text) (id : Nat) : key ∉ footprint record id := by
  intro written
  rcases List.mem_append.mp written with written | written
  · rcases List.mem_cons.mp written with rfl | written
    · cases history
    · rcases Outcome.exists_of_mem_keys written with ⟨index, -, written⟩
      cases List.mem_singleton.mp written
      cases history
  · rcases Outcome.exists_of_mem_keys written with ⟨index, -, written⟩
    cases List.mem_singleton.mp written
    cases history

namespace Represents

variable (holds : Represents record ledger)

include holds

/-- A stored snapshot can always be read. -/
theorem snapshot_missing {id : Nat} {account : Account}
    (missing : (read? record (.snapshot id account)).bind Text.readU64? = none) :
    read? record (.snapshot id account) = none := by
  rw [holds.read?_eq, Ledger.contents] at missing ⊢
  cases taken : ledger.snapshot id account with
  | none => rfl
  | some power =>
      have fits := ledger.snapshot_le id account power taken
      simp [taken, Text.readU64?_decimal fits] at missing

theorem proposal_missing (field : ProposalField) :
    read? record (.proposal (Proposals.count record) field) = none := by
  simp [holds.read?_eq, holds.proposalCount_eq, Ledger.contents]

theorem operation_missing (coherent : ledger.Coherent) (field : OperationField) :
    read? record (.operation (Operations.count record) field) = none := by
  simp [holds.read?_eq, holds.operationCount_eq coherent.bookings_le, Ledger.contents]

theorem vote_missing {proposalId : Number} {index : Nat}
    (addressed : Actions.addressed record proposalId = .ok index) :
    read? record (.vote index (Ballots.count record index)) = none := by
  rcases Actions.addressed_eq_ok.mp addressed with ⟨id, -, -, indexEq⟩
  rcases Ledger.indexOf_eq_some (holds.indexOf_eq_ok.mp indexEq) with ⟨motion, found, -⟩
  simp [holds.read?_eq, holds.voteCount_eq found, Ledger.contents, found]

/-- An action changes nothing, or nothing stands yet where it writes history. -/
theorem missing_of_written (coherent : ledger.Coherent)
    (effect : Action.Effect params record caller now action next) {key : Key}
    (history : key.isHistory = true) (written : key ∈ action.footprint record caller) :
    next = record ∨ read? record key = none := by
  cases effect with
  | registered => exact .inl rfl
  | entered entrant =>
      cases action with
      | selfRegister | setVotingPower | grantRole | revokeRole =>
          exact absurd written (Members.not_mem_footprint history _ _)
      | _ => cases entrant
  | delegated =>
      cases List.mem_singleton.mp written
      cases history
  | snapshot taken fits =>
      rw [Action.footprint_snapshot fits] at written
      cases List.mem_singleton.mp written
      cases taken with
      | before => exact .inl rfl
      | now _ missing => exact .inr (holds.snapshot_missing missing)
  | proposed =>
      rcases List.mem_cons.mp written with rfl | written
      · cases history
      · rcases List.mem_map.mp written with ⟨field, -, rfl⟩
        exact .inr (holds.proposal_missing field)
  | @voted _ _ _ _ choice _ _ addressed _ choiceEq =>
      rw [Action.footprint_castVote addressed choiceEq] at written
      rcases List.mem_cons.mp written with rfl | written
      · cases choice <;> cases history
      · cases List.mem_singleton.mp written
        exact .inr (holds.vote_missing addressed)
  | intended unset _ fits =>
      rw [Action.footprint_submitVoteIntent fits] at written
      cases List.mem_singleton.mp written
      exact .inr unset
  | canceled addressed =>
      rw [Action.footprint_cancel addressed] at written
      cases List.mem_singleton.mp written
      cases history
  | queued passed =>
      rw [Action.footprint_queue passed] at written
      rcases List.mem_cons.mp written with rfl | written
      · cases history
      · rcases List.mem_cons.mp written with rfl | written
        · cases history
        · rcases List.mem_map.mp written with ⟨field, -, rfl⟩
          exact .inr (holds.operation_missing coherent field)
  | executed _ completed =>
      rw [Action.footprint_execute completed] at written
      exact absurd written (Execution.not_mem_footprint history _ _)

end Represents

/-- No action gives an operation a predecessor, or takes it away. -/
theorem Action.Effect.predecessor_eq
    (effect : Action.Effect params record caller now action next) (index : Nat) :
    read? next (.operation index .predecessor) =
      read? record (.operation index .predecessor) := by
  rcases effect.admitted with rfl | written
  · rfl
  · exact written.read?_eq fun value admits => admits.1 index rfl

/-- What is stored as history stays, and so do predecessors where there are none. -/
structure Record.Keeps (record next : Text) : Prop where
  stored : ∀ key : Key, key.isHistory = true → ∀ text : Text,
    read? record key = some text → read? next key = some text
  predecessor : ∀ index, read? next (.operation index .predecessor) =
    read? record (.operation index .predecessor)

namespace Record.Keeps

theorem refl (record : Text) : Keeps record record :=
  ⟨fun _ _ _ stored => stored, fun _ => rfl⟩

theorem trans {middle : Text} (first : Keeps record middle) (second : Keeps middle next) :
    Keeps record next where
  stored key history text stored :=
    second.stored key history text (first.stored key history text stored)
  predecessor index := (second.predecessor index).trans (first.predecessor index)

theorem of_effect (holds : Represents record ledger) (coherent : ledger.Coherent)
    (effect : Action.Effect params record caller now action next) : Keeps record next where
  predecessor := effect.predecessor_eq
  stored key history text stored := by
    by_cases written : key ∈ action.footprint record caller
    · rcases holds.missing_of_written coherent effect history written with rfl | missing
      · exact stored
      · rw [missing] at stored
        cases stored
    · rw [effect.spares.read?_eq written, stored]

theorem of_moves (holds : Represents record ledger) (coherent : ledger.Coherent)
    (moves : List Move) : Keeps record (recordAfter params record moves) := by
  induction moves generalizing record ledger with
  | nil => exact .refl record
  | cons move moves induction =>
      rcases holds.next coherent move with
        ⟨fault, -, same⟩ | ⟨receipt, after, done, afterHolds, afterCoherent, -⟩
      · rw [recordAfter, List.foldl_cons, same]
        exact induction holds coherent
      · have effect := Action.effect_of_apply done
        rw [← Move.next_eq done] at effect
        exact (of_effect holds coherent effect).trans (induction afterHolds afterCoherent)

end Record.Keeps

/-! ## Votes in the order of their indices -/

namespace Ballots

/-- The indices of the votes are those up to the first free one. -/
theorem range_count (record : Text) (index : Nat) :
    List.range (count record index) =
      (List.range slots).takeWhile fun vote => (written? record index vote).isSome := by
  have cut := List.takeWhile_prefix (l := List.range slots)
    fun vote => (written? record index vote).isSome
  have fits := cut.length_le
  rw [List.length_range] at fits
  rw [List.prefix_iff_eq_take.mp cut, List.take_range, Nat.min_eq_left fits]
  rfl

/-- Where written votes stay, the votes are the first ones of those that come to be. -/
theorem list_prefix {index : Nat} (kept : ∀ vote text, written? record index vote = some text →
    written? next index vote = some text) : list record index <+: list next index := by
  have stays (vote : Nat) (written : (written? record index vote).isSome = true) :
      written? next index vote = written? record index vote := by
    rcases Option.isSome_iff_exists.mp written with ⟨text, stored⟩
    rw [stored, kept vote text stored]
  have both : (fun vote => decide ((written? record index vote).isSome = true ∧
      (written? next index vote).isSome = true)) =
        fun vote => (written? record index vote).isSome := by
    funext vote
    rw [Bool.eq_iff_iff, decide_eq_true_iff, and_iff_left_iff_imp]
    intro written
    rw [stays vote written, written]
  have shorter : List.range (count record index) <+: List.range (count next index) := by
    rw [range_count, range_count, ← both, ← List.takeWhile_takeWhile]
    exact List.takeWhile_prefix _
  have same : list record index = (List.range (count record index)).filterMap
      fun vote => (written? next index vote).bind parse? := by
    refine List.filterMap_congr fun vote inside => ?_
    rw [range_count] at inside
    have written := List.mem_takeWhile_imp inside
    rw [stays vote written]
  rw [same]
  exact shorter.filterMap _

end Ballots

/-! ## Runs -/

/-- What no action changes of a record. Whatever is stored under a key of history stays as
it is; the rest is what follows for those who read the record. -/
structure Record.Extends (record next : Text) : Prop where
  stored : ∀ key : Key, key.isHistory = true → ∀ text : Text,
    findValue record key.text = some text → findValue next key.text = some text
  proposals : ∀ index < Proposals.count record, ∀ field : ProposalField, field.isFixed = true →
    Proposals.field? next index field = Proposals.field? record index field
  /-- An operation without a predecessor remains without one. -/
  operations : ∀ index < Operations.count record, ∀ field : OperationField,
    field.isFixed = true →
      Operations.field? next index field = Operations.field? record index field
  votes : ∀ index, Ballots.list record index <+: Ballots.list next index
  snapshots : ∀ id account, (read? record (.snapshot id account)).isSome = true →
    Delegations.snapshotVotes next id account = Delegations.snapshotVotes record id account
  windows : ∀ index < Proposals.count record,
    Proposals.word next index .voteStart = Proposals.word record index .voteStart ∧
      Proposals.word next index .voteEnd = Proposals.word record index .voteEnd
  readyTimes : ∀ index < Operations.count record,
    Operations.word next index .ready = Operations.word record index .ready

theorem Represents.extends_of_keeps (holds : Represents record ledger)
    (coherent : ledger.Coherent) (keeps : Record.Keeps record next) :
    Record.Extends record next := by
  have proposals (index : Nat) (inside : index < Proposals.count record) (field : ProposalField)
      (fixed : field.isFixed = true) :
      Proposals.field? next index field = Proposals.field? record index field := by
    rw [holds.proposalCount_eq] at inside
    have stored := holds.proposalText_eq (List.getElem?_eq_getElem inside) field
    rw [stored]
    exact keeps.stored (.proposal index field) fixed _ stored
  have operations (index : Nat) (inside : index < Operations.count record)
      (field : OperationField) (fixed : field.isFixed = true) :
      Operations.field? next index field = Operations.field? record index field := by
    rw [holds.operationCount_eq coherent.bookings_le] at inside
    have read := holds.operationText_eq (List.getElem?_eq_getElem inside) field
    cases stored : Operations.field? record index field with
    | some text => exact keeps.stored (.operation index field) fixed text stored
    | none =>
        cases field with
        | predecessor => exact (keeps.predecessor index).trans stored
        | state => cases fixed
        | id | proposal | ready =>
            rw [stored] at read
            cases read
  constructor
  case stored => exact keeps.stored
  case proposals => exact proposals
  case operations => exact operations
  case votes =>
    intro index
    exact Ballots.list_prefix fun vote text => keeps.stored (.vote index vote) rfl text
  case snapshots =>
    intro id account taken
    rcases Option.isSome_iff_exists.mp taken with ⟨text, stored⟩
    have same := keeps.stored _ rfl text stored
    rw [Delegations.snapshotVotes, Delegations.snapshotVotes, same, stored]
  case windows =>
    intro index inside
    rw [Proposals.word, Proposals.word, Proposals.word, Proposals.word,
      proposals index inside .voteStart rfl, proposals index inside .voteEnd rfl]
    exact ⟨rfl, rfl⟩
  case readyTimes =>
    intro index inside
    rw [Operations.word, Operations.word, operations index inside .ready rfl]

end

/-- Whatever moves follow on a run, its history is only appended to. -/
theorem Seeded.history_extends (params : Params) {start : Text} (seeded : Seeded start)
    (moves later : List Move) :
    Record.Extends (recordAfter params start moves)
      (recordAfter params start (moves ++ later)) := by
  rcases seeded.run_represented params moves with ⟨ledger, holds, coherent⟩
  rw [recordAfter_append]
  exact holds.extends_of_keeps coherent (.of_moves holds coherent later)

namespace Sample

/-- Alice votes, and her power is snapshotted. -/
def recorded : List Move :=
  moves.take 3 ++ [{ caller := bob, now := 106, action := .snapshot id alice }]

/-- Bob delegates to Alice, and her power is snapshotted again; then Bob votes. -/
def later : List Move := [
  { caller := bob, now := 107, action := .delegate alice },
  { caller := alice, now := 108, action := .snapshot id alice },
  { caller := bob, now := 115, action := .castVote id 0 }]

theorem snapshot_outlasts_delegation :
    Seeded start ∧
      Record.Extends (recordAfter params start recorded)
        (recordAfter params start (recorded ++ later)) ∧
      Delegations.effectiveVotes (recordAfter params start (recorded ++ later)) alice = 400 ∧
      Delegations.snapshotVotes (recordAfter params start (recorded ++ later)) 1785919953
        alice = 300 ∧
      (Ballots.list (recordAfter params start recorded) 0).length = 1 ∧
      (Ballots.list (recordAfter params start (recorded ++ later)) 0).length = 2 := by
  have facts :
      Delegations.effectiveVotes (recordAfter params start (recorded ++ later)) alice = 400 ∧
      Delegations.snapshotVotes (recordAfter params start recorded) 1785919953 alice = 300 ∧
      (Record.read? (recordAfter params start recorded)
        (.snapshot 1785919953 alice)).isSome = true ∧
      (Ballots.list (recordAfter params start recorded) 0).length = 1 ∧
      (Ballots.list (recordAfter params start (recorded ++ later)) 0).length = 2 := by
    decide +kernel
  rcases facts with ⟨power, snapshot, taken, before, after⟩
  have extended := seeded.history_extends params recorded later
  exact ⟨seeded, extended, power, (extended.snapshots _ _ taken).trans snapshot, before, after⟩

end Sample

end LedgerGovernance
