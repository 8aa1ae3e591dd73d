import LedgerGovernance.Proofs.Ledger.Steps

/-! Runs of actions on one record. A run starts from a record that was built of members
alone; callers and times are whatever they are, and times need not increase. A move that
is refused leaves the record as it was. -/

namespace LedgerGovernance

/-- An action of a caller at a time. -/
structure Move where
  caller : Account
  now : Nat
  action : Action
deriving DecidableEq, Repr

namespace Move

def outcome (move : Move) (params : Params) (record : Text) : Outcome Receipt :=
  move.action.apply params record move.caller (move.now : Number)

/-- The record behind a move. -/
def next (params : Params) (record : Text) (move : Move) : Text :=
  match move.outcome params record with
  | .ok receipt => receipt.record
  | .error _ => record

end Move

/-- A record that was built from the empty one by entering members. -/
inductive Seeded : Text → Prop
  | empty : Seeded []
  | entered {params : Params} {record next : Text} {account : Account} {power : Int}
      {mask : Number} (seeded : Seeded record)
      (done : Members.set params record account power mask = .ok next) : Seeded next

/-- The record after some moves. -/
def recordAfter (params : Params) (start : Text) (moves : List Move) : Text :=
  moves.foldl (Move.next params) start

theorem recordAfter_append (params : Params) (start : Text) (first second : List Move) :
    recordAfter params start (first ++ second) =
      recordAfter params (recordAfter params start first) second :=
  List.foldl_append

theorem recordAfter_append_singleton (params : Params) (start : Text) (moves : List Move)
    (move : Move) :
    recordAfter params start (moves ++ [move]) =
      move.next params (recordAfter params start moves) :=
  recordAfter_append params start moves [move]

theorem recordAfter_take_succ {params : Params} {start : Text} {moves : List Move} {step : Nat}
    {move : Move} (standing : moves[step]? = some move) :
    recordAfter params start (moves.take (step + 1)) =
      move.next params (recordAfter params start (moves.take step)) := by
  rw [List.take_add_one, standing, Option.toList_some, recordAfter_append_singleton]

/-- The move that stands at a step of a run, if it has a result there. -/
def SucceedsAt (params : Params) (start : Text) (moves : List Move) (step : Nat)
    (move : Move) : Prop :=
  moves[step]? = some move ∧
    ∃ receipt, move.outcome params (recordAfter params start (moves.take step)) = .ok receipt

/-- Whether a step of a run is a certain action with a result. -/
def ActsAt (params : Params) (start : Text) (moves : List Move) (step : Nat)
    (action : Action) : Prop :=
  ∃ move, SucceedsAt params start moves step move ∧ move.action = action

namespace SucceedsAt

variable {params : Params} {start : Text} {moves : List Move} {step : Nat} {move : Move}

theorem lt_length (succeeds : SucceedsAt params start moves step move) : step < moves.length :=
  (List.getElem?_eq_some_iff.mp succeeds.1).1

/-- What comes later in a run changes nothing at a step. -/
theorem take_iff {count : Nat} (before : step < count) :
    SucceedsAt params start (moves.take count) step move ↔
      SucceedsAt params start moves step move := by
  rw [SucceedsAt, SucceedsAt, List.getElem?_take_of_lt before, List.take_take,
    Nat.min_eq_left (Nat.le_of_lt before)]

theorem append_singleton_iff {last : Move} (before : step < moves.length) :
    SucceedsAt params start (moves ++ [last]) step move ↔
      SucceedsAt params start moves step move := by
  have same : SucceedsAt params start ((moves ++ [last]).take moves.length) step move ↔
      SucceedsAt params start (moves ++ [last]) step move := take_iff before
  rwa [List.take_left, iff_comm] at same

theorem last_iff {last : Move} :
    SucceedsAt params start (moves ++ [last]) moves.length move ↔
      last = move ∧ ∃ receipt, move.outcome params (recordAfter params start moves) =
        .ok receipt := by
  simp [SucceedsAt]

/-- A step of a longer run is a step of the run before or the last one. -/
theorem append_singleton_cases {last : Move}
    (succeeds : SucceedsAt params start (moves ++ [last]) step move) :
    SucceedsAt params start moves step move ∨
      step = moves.length ∧ last = move ∧
        ∃ receipt, move.outcome params (recordAfter params start moves) = .ok receipt := by
  have inside := succeeds.lt_length
  rw [List.length_append, List.length_singleton] at inside
  by_cases before : step < moves.length
  · exact .inl ((append_singleton_iff before).mp succeeds)
  · have last : step = moves.length := by omega
    subst last
    exact .inr ⟨rfl, last_iff.mp succeeds⟩

end SucceedsAt

/-! ## Runs and ledgers -/

theorem Seeded.represented {start : Text} (seeded : Seeded start) :
    ∃ ledger, Represents start ledger ∧ ledger.Coherent ∧ ledger.motions = [] ∧
      ledger.bookings = [] := by
  induction seeded with
  | empty => exact ⟨.empty, represents_empty, ⟨List.nodup_nil, nofun⟩, rfl, rfl⟩
  | entered _ done induction =>
      rcases induction with ⟨ledger, holds, coherent, unproposed, unbooked⟩
      rcases holds.set done with ⟨seat, after, seated, nextHolds⟩
      refine ⟨after, nextHolds, coherent.entered seated.entered, ?_⟩
      cases seated.entered with
      | replaced | added => exact ⟨unproposed, unbooked⟩

/-- A move that has a result takes the ledger one step on; any other leaves the record. -/
theorem Represents.next {params : Params} {record : Text} {ledger : Ledger}
    (holds : Represents record ledger) (coherent : ledger.Coherent) (move : Move) :
    (∃ fault, move.outcome params record = .error fault ∧ move.next params record = record) ∨
      ∃ receipt after, move.outcome params record = .ok receipt ∧
        Represents (move.next params record) after ∧ after.Coherent ∧
          Ledger.Step params move.caller (move.now : Number) ledger move.action after := by
  unfold Move.next
  cases done : move.outcome params record with
  | error fault => exact .inl ⟨fault, rfl, rfl⟩
  | ok receipt =>
      rcases holds.apply coherent done with ⟨after, afterHolds, step⟩
      exact .inr ⟨receipt, after, rfl, afterHolds, step.coherent coherent, step⟩

/-- What holds of the start and is kept by every move, between the moves made so far and
the ledger behind them, holds of a whole run. -/
theorem Represents.run {params : Params} {start : Text} {ledger : Ledger}
    (holds : Represents start ledger) (coherent : ledger.Coherent)
    {motive : List Move → Ledger → Prop} (initial : motive [] ledger)
    (refused : ∀ moves move before fault, motive moves before →
      move.outcome params (recordAfter params start moves) = .error fault →
        motive (moves ++ [move]) before)
    (stepped : ∀ moves move before after receipt,
      Represents (recordAfter params start moves) before → motive moves before →
        move.outcome params (recordAfter params start moves) = .ok receipt → before.Coherent →
          Ledger.Step params move.caller (move.now : Number) before move.action after →
            motive (moves ++ [move]) after)
    (moves : List Move) :
    ∃ after, Represents (recordAfter params start moves) after ∧ after.Coherent ∧
      motive moves after := by
  induction moves using List.reverseRec with
  | nil => exact ⟨ledger, holds, coherent, initial⟩
  | append_singleton moves move induction =>
      rcases induction with ⟨before, beforeHolds, beforeCoherent, invariant⟩
      rw [recordAfter_append_singleton]
      rcases beforeHolds.next beforeCoherent move with
        ⟨fault, done, same⟩ | ⟨receipt, after, done, afterHolds, afterCoherent, step⟩
      · rw [same]
        exact ⟨before, beforeHolds, beforeCoherent,
          refused moves move before fault invariant done⟩
      · exact ⟨after, afterHolds, afterCoherent,
          stepped moves move before after receipt beforeHolds invariant done beforeCoherent
            step⟩

theorem Represents.run_represented {start : Text} {ledger : Ledger}
    (holds : Represents start ledger) (coherent : ledger.Coherent) (params : Params)
    (moves : List Move) :
    ∃ after, Represents (recordAfter params start moves) after ∧ after.Coherent := by
  rcases holds.run (motive := fun _ _ => True) coherent trivial (fun _ _ _ _ _ _ => trivial)
    (fun _ _ _ _ _ _ _ _ _ _ => trivial) moves with ⟨after, afterHolds, afterCoherent, -⟩
  exact ⟨after, afterHolds, afterCoherent⟩

/-- Every record of a run represents a coherent ledger. -/
theorem Seeded.run_represented (params : Params) {start : Text} (seeded : Seeded start)
    (moves : List Move) :
    ∃ ledger, Represents (recordAfter params start moves) ledger ∧ ledger.Coherent := by
  rcases seeded.represented with ⟨ledger, holds, coherent, -⟩
  exact holds.run_represented coherent params moves

/-! ## A run from start to end -/

namespace Sample

def params : Params where
  recordCapacity := 4096
  maxMembers := 2
  maxProposals := 2
  votingDelay := 5
  votingPeriod := 10
  proposalThreshold := 1
  quorumPercentage := 50
  timelockMinDelay := 20
  timelockGracePeriod := 30
  selfRegisterPower := 100

def alice : Account := List.replicate Account.size 1

def bob : Account := List.replicate Account.size 2

/-- Alice is the only member, and holds every role. -/
def start : Text :=
  "member_count=1;member_0=0101010101010101010101010101010101010101:300:7".toList

theorem entered : Members.set params [] alice 300 7 = .ok start := by
  decide +kernel

theorem seeded : Seeded start :=
  .entered .empty entered

/-- The id of the proposal that Alice makes at second 100. -/
def id : Number := 1785919953

def moves : List Move := [
  { caller := bob, now := 90, action := .selfRegister },
  { caller := alice, now := 100, action := .propose (some 7) },
  { caller := alice, now := 105, action := .castVote id 1 },
  { caller := bob, now := 115, action := .castVote id 0 },
  { caller := bob, now := 116, action := .queue id },
  { caller := alice, now := 136, action := .execute id }]

/-- The record behind both votes. -/
def voted : Text :=
  recordAfter params start (moves.take 4)

end Sample

end LedgerGovernance
