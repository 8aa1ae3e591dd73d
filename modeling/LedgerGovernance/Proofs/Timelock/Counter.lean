import LedgerGovernance.Proofs.Checked.Operations
import LedgerGovernance.Proofs.Timelock.Runs

/-! The counter of operations. It is written as a number of any size, but read back only up to
255, and as zero beyond. There are 256 indices, so there is room for an operation that the
counter cannot tell: once it is scheduled, the record seems to have no operations at all, and
the next one is written behind the first. -/

namespace LedgerGovernance

namespace Timelock

open Operations

/-! ## New operations -/

/-- A new operation is read back as it was scheduled. -/
structure ReadBack (proposalId now delay : Number) (predecessorId : Option Number)
    (scheduled : Scheduled) (operation : Operation) : Prop where
  at?_eq : at? scheduled.record scheduled.index = some operation
  id_eq : operation.id = scheduled.operationId
  proposalId_eq : (operation.proposalId : Number) = proposalId
  readyAt_eq : some (operation.readyAt : Number) = now.checkedAdd delay
  pending : operation.storedState = .pending
  predecessorId_eq : (operation.predecessorId : Number) = predecessorId.getD 0

/-- A new operation stands behind the operations that were scheduled before, and none of them
is lost. -/
structure Counted (record : Text) (earlier : Nat) (proposalId now delay : Number)
    (predecessorId : Option Number) (scheduled : Scheduled) : Prop where
  index_eq : scheduled.index = earlier
  count_eq : count scheduled.record = earlier + 1
  list_eq : ∃ operation, ReadBack proposalId now delay predecessorId scheduled operation ∧
    list scheduled.record = list record ++ [operation]

end Timelock

namespace Represents

open Timelock

variable {params : Params} {record : Text} {ledger : Ledger} {proposalId now delay : Number}
  {predecessorId : Option Number} {scheduled : Operations.Scheduled}
  (holds : Represents record ledger)

include holds

/-- A counter that is too large reads as zero. -/
theorem operationCount_eq_zero (many : maxU8 < ledger.bookings.length)
    (fits : ledger.bookings.length ≤ maxU32) : Operations.count record = 0 := by
  have stored := holds.read?_eq .operationCount
  rw [Ledger.contents, Ledger.counter, if_neg (Nat.ne_zero_of_lt many)] at stored
  have value : Record.findValue record Key.operationCount.text =
    some (Text.decimal ledger.bookings.length) := stored
  rw [Operations.count, Record.readCount, value, Option.bind_some,
    Text.readCount?_of_large many fits]
  rfl

/-- As long as there is room, a new operation stands behind all others and is read there. -/
theorem booked (fits : ledger.bookings.length ≤ maxU8)
    (done : Operations.schedule params record proposalId now delay predecessorId =
      .ok scheduled) :
    ∃ booking, scheduled.index = ledger.bookings.length ∧
      Represents scheduled.record (ledger.addBooking booking) ∧
      ReadBack proposalId now delay predecessorId scheduled
        (booking.operation scheduled.index) := by
  rcases Operations.schedule_eq_ok done with
    ⟨id, readyAt, predecessor, rfl, predecessorFits, opened⟩
  have newHolds := holds.opened fits opened predecessorFits
  have index : scheduled.index = ledger.bookings.length :=
    opened.index_eq.trans (holds.operationCount_eq fits)
  have found : (ledger.addBooking (opened.booking predecessorFits)).bookings[scheduled.index]? =
      some (opened.booking predecessorFits) := by
    rw [Ledger.addBooking, getElem?_append_singleton, if_pos index]
  refine ⟨opened.booking predecessorFits, index, newHolds, ?_⟩
  constructor
  case at?_eq => exact newHolds.operationAt?_eq found
  case id_eq => rfl
  case proposalId_eq => exact (Number.u32_eq_ok.mp opened.proposalId_eq).1.symm
  case readyAt_eq => exact opened.ready_eq.symm
  case pending => rfl
  case predecessorId_eq => cases predecessor <;> rfl

/-- As long as the counter can tell it, a new operation is counted. -/
theorem counted (done : Operations.schedule params record proposalId now delay predecessorId =
      .ok scheduled) (fits : ledger.bookings.length < maxU8) :
    Counted record ledger.bookings.length proposalId now delay predecessorId scheduled := by
  have oldFits := Nat.le_of_lt fits
  rcases holds.booked oldFits done with ⟨booking, index, newHolds, read⟩
  have length : (ledger.addBooking booking).bookings.length = ledger.bookings.length + 1 :=
    List.length_append
  have newFits := Nat.le_trans (Nat.le_of_eq length) fits
  constructor
  case index_eq => exact index
  case count_eq => exact (newHolds.operationCount_eq newFits).trans length
  case list_eq =>
    refine ⟨booking.operation scheduled.index, read, ?_⟩
    rw [newHolds.operationList_eq newFits, holds.operationList_eq oldFits, Ledger.addBooking,
      List.mapIdx_append, index]
    simp

/-- The operation that the counter cannot tell hides them all. -/
theorem forgotten (done : Operations.schedule params record proposalId now delay predecessorId =
      .ok scheduled) (full : ledger.bookings.length = maxU8) :
    Operations.count scheduled.record = 0 ∧ Operations.list scheduled.record = [] := by
  rcases holds.booked (Nat.le_of_eq full) done with ⟨booking, -, newHolds, -⟩
  have length : (ledger.addBooking booking).bookings.length = maxU8 + 1 := by
    rw [← full]
    exact List.length_append
  have count := newHolds.operationCount_eq_zero (length.symm ▸ Nat.lt_succ_self maxU8)
    (length.symm ▸ by decide)
  exact ⟨count, by rw [Operations.list, count]; rfl⟩

end Represents

namespace Timelock

open Operations

/-! ## Runs -/

/-- On every run, a new operation is counted if it is one of the first 255. Behind it the
counter tells nothing, and a later one does not stand where it should. -/
theorem counted_iff {moves : List Move} {params : Params} {proposalId now delay : Number}
    {predecessorId : Option Number} {result : Scheduled}
    (done : schedule params (recordAfter moves) proposalId now delay predecessorId =
      .ok result) :
    Counted (recordAfter moves) (scheduled moves) proposalId now delay predecessorId result ↔
      scheduled moves < maxU8 := by
  constructor
  · intro counted
    by_contra many
    by_cases full : scheduled moves = maxU8
    · rcases represented moves (Nat.le_of_eq full) with ⟨ledger, holds, length⟩
      have count := (holds.forgotten done (length.trans full)).1
      rw [counted.count_eq] at count
      cases count
    · rcases schedule_eq_ok done with ⟨id, readyAt, predecessor, -, -, opened⟩
      have inside := count_le (recordAfter moves)
      rw [← opened.index_eq, counted.index_eq] at inside
      omega
  · intro fits
    rcases represented moves (Nat.le_of_lt fits) with ⟨ledger, holds, length⟩
    rw [← length] at fits ⊢
    exact holds.counted done fits

/-! ## A full timelock -/

/-- Where no operation has a proposal id, one can be scheduled: what is written does not depend
on the parameters, as long as it fits. -/
theorem exists_schedule {record : Text} {proposalId now delay : Nat}
    (idFits : proposalId ≤ maxU32) (readyFits : now + delay ≤ maxU32)
    (idle : ∀ params, hasLive params record (proposalId : Number) (now : Number) = false) :
    ∃ result : Scheduled, ∀ params : Params, params.timelockMinDelay ≤ delay →
      Text.utf8Size result.record ≤ params.recordCapacity →
        schedule params record (proposalId : Number) (now : Number) (delay : Number) none =
          .ok result := by
  have nowFits := Nat.le_of_add_right_le readyFits
  have delayFits := Nat.le_of_add_left_le readyFits
  have room := count_le record
  rcases Digest.exists_operationId idFits nowFits room with ⟨id, idEq, -⟩
  obtain ⟨draft, appended⟩ : ∃ draft,
      ((Draft.ofRecord record).remove Key.operationCount.text).appendAll (Record.entries
        (opening (count record) (newField id proposalId (now + delay) none))) = .ok draft :=
    ⟨_, Draft.appendAll_eq _ _ (opening_plain (count record) id proposalId (now + delay))⟩
  refine ⟨⟨draft.toRecord, id, count record⟩, fun params longEnough fits => ?_⟩
  have ready : (now : Number).checkedAdd (delay : Number) =
      some ((now + delay : Nat) : Number) := by
    rw [Number.checkedAdd_natCast nowFits delayFits, if_pos readyFits]
  have encoded : draft.encode params.recordCapacity = .ok draft.toRecord :=
    Draft.encode_of_le (Number.natCast_le.mpr fits)
  unfold schedule
  dsimp only
  rw [if_neg (by rw [Number.natCast_lt]; omega), if_neg (by simp [idle]), if_neg (by omega), ready]
  simp only [idEq, Number.u32_natCast idFits, Number.u32_natCast readyFits, Outcome.ok_bind]
  refine (congrArg (fun made : Outcome Draft => made >>= fun draft =>
    draft.encode params.recordCapacity >>= fun next =>
      pure ({ record := next, operationId := id, index := count record } : Scheduled))
        appended).trans ?_
  rw [Outcome.ok_bind, encoded]
  rfl

end Timelock

/-- Parameters with room for a record of a size, and without a least delay. -/
def Params.roomy (size : Nat) : Params :=
  { Params.default with
    recordCapacity := size + 1
    recordCapacity_pos := Nat.le_add_left 1 size
    timelockMinDelay := 0
    timelockMinDelay_le := Nat.zero_le maxU32 }

/-- What is scheduled where there is room is added to the ledger. -/
theorem Represents.exists_schedule {record : Text} {ledger : Ledger}
    (holds : Represents record ledger) (fits : ledger.bookings.length ≤ maxU8)
    {proposalId now delay : Nat} (idFits : proposalId ≤ maxU32) (readyFits : now + delay ≤ maxU32)
    (apart : ∀ booking ∈ ledger.bookings, booking.proposalId ≠ proposalId) :
    ∃ (result : Operations.Scheduled) (booking : Booking), booking.proposalId = proposalId ∧
      Represents result.record (ledger.addBooking booking) ∧
      ∀ params : Params, params.timelockMinDelay ≤ delay →
        Text.utf8Size result.record ≤ params.recordCapacity →
          Operations.schedule params record (proposalId : Number) (now : Number)
            (delay : Number) none = .ok result := by
  have idle (params : Params) :
      Operations.hasLive params record (proposalId : Number) (now : Number) = false :=
    (holds.hasLive_eq_false_iff fits).mpr fun booking member same =>
      absurd same (apart booking member)
  rcases Timelock.exists_schedule idFits readyFits idle with ⟨result, done⟩
  have scheduling := done (.roomy (Text.utf8Size result.record)) (Nat.zero_le delay) (Nat.le_succ _)
  rcases holds.booked fits scheduling with ⟨booking, -, newHolds, read⟩
  exact ⟨result, booking, Number.natCast_inj.mp read.proposalId_eq, newHolds, done⟩

namespace Timelock

open Operations

/-- A proposal is scheduled at second 0. -/
def scheduling (params : Params) (delay id : Nat) : Move where
  params
  now := 0
  action := .schedule (id : Number) (delay : Number) none

/-- The first proposals are scheduled in turn. -/
def schedulings (params : Params) (delay total : Nat) : List Move :=
  (List.range total).map (scheduling params delay)

/-- In a record that is large enough each of the first 255 proposals can be scheduled. -/
theorem exists_schedulings {delay : Nat} (delayFits : delay ≤ maxU32) {total : Nat}
    (fits : total ≤ maxU8) :
    ∃ (capacity : Nat) (record : Text) (ledger : Ledger), Represents record ledger ∧
      ledger.bookings.length = total ∧
      (∀ booking ∈ ledger.bookings, booking.proposalId < total) ∧
      ∀ params : Params, params.timelockMinDelay ≤ delay → capacity ≤ params.recordCapacity →
        recordAfter (schedulings params delay total) = record ∧
          scheduled (schedulings params delay total) = total := by
  have readyFits : 0 + delay ≤ maxU32 := (Nat.zero_add delay).symm ▸ delayFits
  induction total with
  | zero => exact ⟨0, [], .empty, represents_empty, rfl, nofun, fun _ _ _ => ⟨rfl, rfl⟩⟩
  | succ total induction =>
      have room := Nat.le_of_succ_le fits
      rcases induction room with ⟨capacity, record, ledger, holds, length, below, run⟩
      have idFits : total ≤ maxU32 := Nat.le_trans room (by decide)
      rcases holds.exists_schedule (length ▸ room) idFits readyFits
        (fun booking member => Nat.ne_of_lt (below booking member)) with
        ⟨result, booking, same, nextHolds, done⟩
      refine ⟨max capacity (Text.utf8Size result.record), result.record, _, nextHolds, ?_, ?_, ?_⟩
      · exact List.length_append.trans (congrArg (· + 1) length)
      · intro other member
        rcases List.mem_append.mp member with old | last
        · exact Nat.lt_succ_of_lt (below other old)
        · rw [List.mem_singleton.mp last, same]
          exact Nat.lt_succ_self total
      · intro params longEnough enough
        rcases run params longEnough (Nat.max_le.mp enough).1 with ⟨recordEq, scheduledEq⟩
        have outcome : (scheduling params delay total).outcome record = .ok result.record :=
          Outcome.bind_eq_ok.mpr ⟨result, done params longEnough (Nat.max_le.mp enough).2, rfl⟩
        rw [schedulings, List.range_succ, List.map_append, List.map_singleton, ← schedulings,
          recordAfter_append_singleton, scheduled_append_singleton, recordEq, scheduledEq,
          Move.schedules_of_ok outcome, Move.next, outcome]
        exact ⟨rfl, rfl⟩

/-- Whatever the parameters, in a record that is large enough 256 operations can be scheduled,
and then none of them is told. -/
theorem exists_forgotten {delay : Nat} (delayFits : delay ≤ maxU32) :
    ∃ capacity : Nat, ∀ params : Params, params.timelockMinDelay ≤ delay →
      capacity ≤ params.recordCapacity →
        ∃ (moves : List Move) (result : Scheduled), (∀ move ∈ moves, move.params = params) ∧
          scheduled moves = maxU8 ∧
          schedule params (recordAfter moves) ((maxU8 : Nat) : Number) 0 (delay : Number) none =
            .ok result ∧
          count result.record = 0 ∧ list result.record = [] := by
  have readyFits : 0 + delay ≤ maxU32 := (Nat.zero_add delay).symm ▸ delayFits
  rcases exists_schedulings delayFits (Nat.le_refl maxU8) with
    ⟨capacity, record, ledger, holds, length, below, run⟩
  rcases holds.exists_schedule (Nat.le_of_eq length) (by decide) readyFits
    (fun booking member => Nat.ne_of_lt (below booking member)) with
    ⟨result, booking, -, -, done⟩
  refine ⟨max capacity (Text.utf8Size result.record), fun params longEnough enough => ?_⟩
  rcases run params longEnough (Nat.max_le.mp enough).1 with ⟨recordEq, scheduledEq⟩
  have last := done params longEnough (Nat.max_le.mp enough).2
  refine ⟨schedulings params delay maxU8, result, ?_, scheduledEq, recordEq ▸ last,
    holds.forgotten last length⟩
  intro move member
  rcases List.mem_map.mp member with ⟨id, -, rfl⟩
  rfl

namespace Sample

def first : List Move :=
  [{ params := .default, now := 1000, action := .schedule 7 172800 none }]

/-- A second operation, behind the first. -/
def second : Scheduled where
  record :=
    "op_0_id=2995937141;op_0_prop=7;op_0_ready=173800;op_0_state=1;op_count=2;".toList ++
    "op_1_id=2161376277;op_1_prop=9;op_1_ready=173800;op_1_state=1;".toList ++
    "op_1_predecessor=2995937141".toList
  operationId := 2161376277
  index := 1

/-- The second operation is counted. The last one for which there is room is not. -/
theorem second_counted_last_not :
    schedule .default (recordAfter first) 9 1000 172800 (some 2995937141) = .ok second ∧
    Counted (recordAfter first) 1 9 1000 172800 (some 2995937141) second ∧
    ∃ (params : Params) (moves : List Move) (last : Scheduled),
      schedule params (recordAfter moves) ((maxU8 : Nat) : Number) 0 ((0 : Nat) : Number) none =
        .ok last ∧
      scheduled moves = maxU8 ∧
      ¬ Counted (recordAfter moves) maxU8 ((maxU8 : Nat) : Number) 0 ((0 : Nat) : Number) none
        last := by
  have done : schedule .default (recordAfter first) 9 1000 172800 (some 2995937141) =
      .ok second := by
    decide +kernel
  have one : scheduled first = 1 := by decide +kernel
  refine ⟨done, one ▸ (counted_iff done).mpr (one ▸ by decide), ?_⟩
  rcases exists_forgotten (Nat.zero_le maxU32) with ⟨capacity, run⟩
  rcases run (.roomy capacity) (Nat.le_refl 0) (Nat.le_succ capacity) with
    ⟨moves, last, -, full, lastDone, -⟩
  refine ⟨.roomy capacity, moves, last, lastDone, full, fun counted => ?_⟩
  have fits := (counted_iff lastDone).mp (full.symm ▸ counted)
  omega

end Sample

end Timelock

end LedgerGovernance
