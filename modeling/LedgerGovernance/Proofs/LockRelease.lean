import LedgerGovernance.Host.Memory
import LedgerGovernance.Proofs.Dispatch.Executions
import LedgerGovernance.Proofs.Ledger.Lock
import LedgerGovernance.Proofs.Runs

/-! What becomes of the lock when an execution with a hook ends. From the moment the
locked record is stored, the host takes and keeps every record, but reads whatever it
likes; the hook leaves the record alone. The lock is then given back on every way out
but two: the record cannot be read behind the hook, or it is read as a record that can
be neither completed nor released. -/

namespace LedgerGovernance

namespace Dispatcher

variable {σ : Type} (dispatcher : Dispatcher σ)

/-! ## The two halves of an execution -/

/-- The first half of an execution with a hook, up to the locked record being stored, and
what the hook is told. -/
def lock (proposalId : Number) : Call σ (Text × ExecutionContext) := do
  let caller ← dispatcher.verifyCaller
  let record ← dispatcher.readRecord
  let now ← dispatcher.readTime
  let locked ← dispatcher.storeLocked record caller proposalId now
  let proposalId ← Call.ofOutcome proposalId.u32
  return (locked, { proposalId, caller, now })

theorem run_execute {hook : ExecutionHook σ} (hooked : dispatcher.onExecute = some hook)
    (proposalId : Number) :
    dispatcher.run (.execute proposalId) = (do
      let (locked, context) ← dispatcher.lock proposalId
      dispatcher.runHook hook locked context) := by
  have performed (record : Text) (caller : Account) (now : Nat) :
      dispatcher.perform (.execute proposalId) record caller now =
        dispatcher.executeAround hook record caller proposalId now := by
    simp only [perform, hooked]
  simp only [run, lock, performed, bind_assoc, pure_bind]
  rfl

/-- A lock that was taken was taken for an id, on a record that was not locked. -/
theorem lock_eq_ok {proposalId : Number} {locked : Text} {context : ExecutionContext}
    {state : σ} (taken : ((dispatcher.lock proposalId).on state).1 = .ok (locked, context)) :
    context.proposalId ≤ maxU32 ∧
      ∃ record, Execution.start dispatcher.params record context.caller = .ok locked := by
  rcases Call.on_bind_eq_ok taken with ⟨caller, -, taken⟩
  rcases Call.on_bind_eq_ok taken with ⟨record, -, taken⟩
  rcases Call.on_bind_eq_ok taken with ⟨now, -, taken⟩
  rcases Call.on_bind_eq_ok taken with ⟨stored, storing, taken⟩
  rcases Call.on_bind_eq_ok taken with ⟨id, converting, taken⟩
  cases taken
  rcases Call.on_bind_eq_ok storing with ⟨started, starting, storing⟩
  rcases Call.on_bind_eq_ok storing with ⟨index, -, storing⟩
  rcases Call.on_bind_eq_ok storing with ⟨accepted, -, storing⟩
  cases accepted with
  | false => cases storing
  | true =>
      cases storing
      exact ⟨(Number.u32_eq_ok.mp (Call.on_ofOutcome_eq_ok converting)).2, record,
        Call.on_ofOutcome_eq_ok starting⟩

/-! ## A host that keeps what it is given -/

/-- Once the locked record is held, every write is taken and stored, and nothing else
changes what is stored. Nothing is said about what a read answers. -/
structure Faithful (stored : σ → Text) (held : σ → Prop) : Prop where
  read_keeps : ∀ state, held state →
    held (dispatcher.host.readRecord.run state).2 ∧
      stored (dispatcher.host.readRecord.run state).2 = stored state
  write_stores : ∀ record state, held state →
    held ((dispatcher.host.writeRecord record).run state).2 ∧
      ((dispatcher.host.writeRecord record).run state).1 = true ∧
        stored ((dispatcher.host.writeRecord record).run state).2 = record
  log_keeps : ∀ line state, held state →
    stored ((dispatcher.log line).run state).2 = stored state

/-- The hook of an execution leaves the stored record as it was, however it ends. -/
def HookKeeps (hook : ExecutionHook σ) (stored : σ → Text) (held : σ → Prop) : Prop :=
  ∀ context state, held state →
    held ((hook context).run.run state).2 ∧
      stored ((hook context).run.run state).2 = stored state

/-- The two ways to lose the lock behind a hook that has returned: the record cannot be
read, or what is read can be neither completed nor released. -/
inductive LosesLock (context : ExecutionContext) (state : σ) : Prop
  | unreadable (unread : (dispatcher.host.readRecord.run state).1 = none)
  | unreleasable {current : Text} {failure : Failure} {fault : Fault}
      (read : (dispatcher.host.readRecord.run state).1 = some current)
      (incomplete : Execution.complete dispatcher.params current (context.proposalId : Number)
        (context.now : Number) = .error (.refused failure))
      (unreleased : Execution.releaseLock dispatcher.params current = .error fault)

variable {dispatcher} {stored : σ → Text} {held : σ → Prop}

theorem LosesLock.of_read {context : ExecutionContext} {state : σ} {current : Text}
    (lost : dispatcher.LosesLock context state)
    (read : (dispatcher.host.readRecord.run state).1 = some current) :
    (∃ failure, Execution.complete dispatcher.params current (context.proposalId : Number)
        (context.now : Number) = .error (.refused failure)) ∧
      ∃ fault, Execution.releaseLock dispatcher.params current = .error fault := by
  cases lost with
  | unreadable unread => cases read.symm.trans unread
  | unreleasable other incomplete unreleased =>
      cases read.symm.trans other
      exact ⟨⟨_, incomplete⟩, _, unreleased⟩

theorem release_of_error {record : Text} {fault : Fault}
    (refused : Execution.releaseLock dispatcher.params record = .error fault) (state : σ) :
    (dispatcher.release record).run state = (.error fault, state) := by
  rw [release, refused]
  rfl

namespace Faithful

variable (faithful : dispatcher.Faithful stored held)

include faithful

theorem release {record released : Text}
    (done : Execution.releaseLock dispatcher.params record = .ok released) {state : σ}
    (holds : held state) :
    held ((dispatcher.release record).run state).2 ∧
      stored ((dispatcher.release record).run state).2 = released ∧
        ((dispatcher.release record).run state).1 = .ok () := by
  rcases faithful.write_stores released state holds with ⟨after, taken, same⟩
  rw [Dispatcher.release, done]
  dsimp only
  rw [StateT.run_bind]
  rcases written : (dispatcher.host.writeRecord released).run state with ⟨answer, next⟩
  rw [written] at after taken same
  cases taken
  exact ⟨after, same, rfl⟩

theorem commit (receipt : Receipt) {state : σ} (holds : held state) :
    held ((dispatcher.commit receipt).on state).2 ∧
      stored ((dispatcher.commit receipt).on state).2 = receipt.record := by
  rcases faithful.write_stores receipt.record state holds with ⟨after, taken, same⟩
  rw [Dispatcher.commit, Call.on_lift_bind, taken]
  exact ⟨after, same⟩

/-- Behind the hook, while the stored record is locked: the lock stays exactly when it
is lost. -/
theorem complete {context : ExecutionContext} (fits : context.proposalId ≤ maxU32) {state : σ}
    (holds : held state) (locked : Proposals.isLocked (stored state) = true) :
    held ((dispatcher.complete context.proposalId context.now).on state).2 ∧
      (Proposals.isLocked (stored
          ((dispatcher.complete context.proposalId context.now).on state).2) = true ↔
        dispatcher.LosesLock context state) := by
  rcases reading : dispatcher.host.readRecord.run state with ⟨answer, after⟩
  have kept := faithful.read_keeps state holds
  rw [reading] at kept
  have answered : (dispatcher.host.readRecord.run state).1 = answer := by rw [reading]
  rw [Dispatcher.complete, Call.on_lift_bind, reading]
  dsimp only at kept ⊢
  cases answer with
  | none =>
      refine ⟨kept.1, fun _ => .unreadable answered, fun _ => ?_⟩
      rw [Call.on_refuse, kept.2]
      exact locked
  | some current =>
      dsimp only
      cases completing : Execution.complete dispatcher.params current
          (context.proposalId : Number) (context.now : Number) with
      | ok record =>
          rcases faithful.commit { record, proposalId := some context.proposalId } kept.1 with
            ⟨last, same⟩
          refine ⟨last, fun still => ?_, fun lost => ?_⟩
          · rw [same, Execution.isLocked_of_complete completing] at still
            cases still
          · rcases lost.of_read answered with ⟨⟨failure, incomplete⟩, -⟩
            cases completing.symm.trans incomplete
      | error fault =>
          cases fault with
          | illTyped argument =>
              exact absurd completing (Execution.complete_wellTyped _ current fits _ argument)
          | refused failure =>
              dsimp only
              rw [Call.on_lift_bind]
              cases releasing : Execution.releaseLock dispatcher.params current with
              | ok released =>
                  rcases faithful.release releasing kept.1 with ⟨last, same, gone⟩
                  rw [Call.on_ofOutcome_ok_bind gone, Call.on_refuse]
                  refine ⟨last, fun still => ?_, fun lost => ?_⟩
                  · rw [same, Execution.isLocked_of_releaseLock releasing] at still
                    cases still
                  · rcases lost.of_read answered with ⟨-, fault, unreleased⟩
                    cases releasing.symm.trans unreleased
              | error fault =>
                  rw [release_of_error releasing, Call.on_ofOutcome_error_bind rfl]
                  refine ⟨kept.1, fun _ => .unreleasable answered completing releasing,
                    fun _ => ?_⟩
                  rw [kept.2]
                  exact locked

/-- A hook that fails is followed by the release of the record it was given. -/
theorem runHook {hook : ExecutionHook σ} (keeps : HookKeeps hook stored held)
    {context : ExecutionContext} (fits : context.proposalId ≤ maxU32) {record locked : Text}
    (started : Execution.start dispatcher.params record context.caller = .ok locked)
    {state : σ} (holds : held state) (same : stored state = locked) :
    held ((dispatcher.runHook hook locked context).on state).2 ∧
      (Proposals.isLocked (stored
          ((dispatcher.runHook hook locked context).on state).2) = true ↔
        ((hook context).run.run state).1 = .ok () ∧
          dispatcher.LosesLock context ((hook context).run.run state).2) := by
  rcases running : (hook context).run.run state with ⟨ending, after⟩
  have kept := keeps context state holds
  rw [running] at kept
  rw [Dispatcher.runHook, Call.on_lift_bind, running]
  dsimp only at kept ⊢
  cases ending with
  | ok =>
      have stillLocked : Proposals.isLocked (stored after) = true := by
        rw [kept.2, same]
        exact Execution.isLocked_of_start started
      rcases faithful.complete fits kept.1 stillLocked with ⟨last, iff⟩
      refine ⟨last, iff.trans ?_⟩
      simp
  | error reason =>
      rcases Execution.releaseLock_of_start started with ⟨released, releasing⟩
      rcases faithful.release releasing kept.1 with ⟨last, final, -⟩
      refine ⟨last, fun still => ?_, nofun⟩
      change Proposals.isLocked (stored ((dispatcher.release locked).run after).2) = true at still
      rw [final, Execution.isLocked_of_releaseLock releasing] at still
      cases still

theorem dispatch {action : Action} {state : σ}
    (holds : held ((dispatcher.run action).on state).2) :
    stored ((dispatcher.dispatch action).on state).2 =
      stored ((dispatcher.run action).on state).2 := by
  unfold Call.on at holds ⊢
  rw [Dispatcher.dispatch, ExceptT.run_mk, StateT.run_bind]
  rcases ran : (dispatcher.run action).run.run state with
    ⟨((failure | argument) | reason) | receipt, after⟩ <;> rw [ran] at holds
  · exact faithful.log_keeps (.actionRefused action failure) after holds
  · rfl
  · rfl
  · exact faithful.log_keeps (.actionSucceeded action) after holds

end Faithful

/-- Once the locked record is stored, the execution leaves it locked exactly when its hook
returns and the lock is then lost. -/
theorem isLocked_dispatch_iff {hook : ExecutionHook σ}
    (hooked : dispatcher.onExecute = some hook) (faithful : dispatcher.Faithful stored held)
    (keeps : HookKeeps hook stored held) {proposalId : Number} {state lockedState : σ}
    {locked : Text} {context : ExecutionContext}
    (taken : (dispatcher.lock proposalId).on state = (.ok (locked, context), lockedState))
    (holds : held lockedState) (same : stored lockedState = locked) :
    Proposals.isLocked (stored
        ((dispatcher.dispatch (.execute proposalId)).on state).2) = true ↔
      ((hook context).run.run lockedState).1 = .ok () ∧
        dispatcher.LosesLock context ((hook context).run.run lockedState).2 := by
  have executed : (dispatcher.run (.execute proposalId)).on state =
      (dispatcher.runHook hook locked context).on lockedState := by
    rw [dispatcher.run_execute hooked, Call.on_bind, taken]
  rcases dispatcher.lock_eq_ok (congrArg Prod.fst taken) with ⟨fits, record, started⟩
  rcases faithful.runHook keeps fits started holds same with ⟨last, iff⟩
  rw [← executed] at last iff
  rw [faithful.dispatch last]
  exact iff

end Dispatcher

/-! ## A host that cannot be read behind the hook -/

namespace Sample

/-- The hook does nothing. -/
def dispatcher : Dispatcher FaultyHost where
  host := FaultyHost.host
  params
  onExecute := some fun _ => pure ()

/-- The record is read for the action, and then cannot be read again. -/
def hosted : FaultyHost where
  memory := { record := recordAfter params start (moves.take 5), caller := some alice, now := 136 }
  faults := { reads := [true, false] }

theorem faithful :
    dispatcher.Faithful (·.memory.record) (·.faults.writes = []) where
  read_keeps hosted holds := by
    rcases hosted with ⟨memory, ⟨callers, reads, writes⟩⟩
    rcases reads with _ | ⟨_ | _, reads⟩ <;> exact ⟨holds, rfl⟩
  write_stores record hosted holds := by
    rcases hosted with ⟨memory, ⟨callers, reads, writes⟩⟩
    cases holds
    exact ⟨rfl, rfl, rfl⟩
  log_keeps _ _ _ := rfl

theorem hook_keeps :
    Dispatcher.HookKeeps (fun _ => pure ()) (·.memory.record)
      (fun hosted : FaultyHost => hosted.faults.writes = []) :=
  fun _ _ holds => ⟨holds, rfl⟩

/-- The host once the locked record is stored. -/
def locked : FaultyHost where
  memory := { hosted.memory with record := hosted.memory.record ++ ";_lock=1".toList }
  faults := { reads := [false] }

theorem lock_taken :
    (dispatcher.lock id).on hosted =
      (.ok (locked.memory.record, { proposalId := 1785919953, caller := alice, now := 136 }),
        locked) := by
  decide +kernel

end Sample

theorem sample_lock_lost :
    Proposals.isLocked ((Sample.dispatcher.dispatch (.execute Sample.id)).on
      Sample.hosted).2.memory.record = true := by
  have iff := Dispatcher.isLocked_dispatch_iff rfl Sample.faithful Sample.hook_keeps
    Sample.lock_taken rfl rfl
  exact iff.mpr ⟨rfl, .unreadable rfl⟩

end LedgerGovernance
