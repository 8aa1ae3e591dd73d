import LedgerGovernance.Host.Memory
import LedgerGovernance.Proofs.Dispatch.Courses
import LedgerGovernance.Proofs.LockRelease
import LedgerGovernance.Proofs.Totality

/-! A dispatch without a hook is atomic, whatever its host answers: it writes once at most,
and only what the action has made of the record that was read. To say which calls were
made, the host is watched: each call is noted with its answer as it is made. -/

namespace LedgerGovernance

/-! ## Watching a host -/

/-- A host, and the calls that have been made on it. -/
structure Watched (σ : Type) where
  state : σ
  calls : List HostCall
deriving DecidableEq, Repr

namespace Watched

variable {σ α : Type}

/-- Makes a call and notes it with its answer. -/
def noting (note : α → HostCall) (call : StateM σ α) : StateM (Watched σ) α := fun watched =>
  let (answer, state) := call.run watched.state
  (answer, { state, calls := watched.calls ++ [note answer] })

/-- Does something that is no call on the host. -/
def aside (action : StateM σ α) : StateM (Watched σ) α := fun watched =>
  let (answer, state) := action.run watched.state
  (answer, { watched with state })

end Watched

namespace Host

variable {σ : Type}

def watched (host : Host σ) : Host (Watched σ) where
  readRecord := Watched.noting .read host.readRecord
  writeRecord record := Watched.noting (.wrote record) (host.writeRecord record)
  callerIdentity := Watched.noting .identified host.callerIdentity
  currentTime := Watched.noting .told host.currentTime

variable {host : Host σ} {state last : σ}

theorem Answers.watched {call : HostCall} (answered : host.Answers state last call)
    (earlier : List HostCall) :
    host.watched.Answers { state, calls := earlier }
      { state := last, calls := earlier ++ [call] } call := by
  cases call <;>
    · simp only [Answers] at answered ⊢
      change Watched.noting _ _ _ = _
      rw [Watched.noting, answered]

/-- Watching changes no answer, and the calls of a path are noted in their order. -/
theorem Path.watched {calls : List HostCall} (path : host.Path state calls last)
    (earlier : List HostCall) :
    host.watched.Path { state, calls := earlier }
      calls { state := last, calls := earlier ++ calls } := by
  induction path generalizing earlier with
  | nil =>
      rw [List.append_nil]
      exact .nil
  | @cons state next last call calls answered later induction =>
      have rest := induction (earlier ++ [call])
      rw [List.append_assoc] at rest
      exact .cons (answered.watched earlier) rest

end Host

namespace Dispatcher

variable {σ : Type}

/-- The same dispatcher on the watched host; what its hook and its log do is not noted. -/
def watched (dispatcher : Dispatcher σ) : Dispatcher (Watched σ) where
  host := dispatcher.host.watched
  params := dispatcher.params
  onExecute := dispatcher.onExecute.map fun hook context =>
    ExceptT.mk (Watched.aside (hook context).run)
  log line := Watched.aside (dispatcher.log line)

variable {dispatcher : Dispatcher σ} {action : Action}

theorem Plain.watched (plain : dispatcher.Plain action) : dispatcher.watched.Plain action :=
  plain.imp_left fun unhooked => by rw [Dispatcher.watched, unhooked, Option.map_none]

theorem logged_watched (outcome : Outcome Receipt) (state : σ) (calls : List HostCall) :
    dispatcher.watched.logged action outcome { state, calls } =
      { state := dispatcher.logged action outcome state, calls } := by
  rcases outcome with (failure | argument) | receipt <;> rfl

end Dispatcher

/-! ## What is stored -/

/-- What is stored behind a call: a record that was taken, or what was stored before. -/
def HostCall.leaves (before : Text) : HostCall → Text
  | .wrote record true => record
  | _ => before

def HostCall.isWrite : HostCall → Bool
  | .wrote .. => true
  | _ => false

theorem HostCall.wrote_mem_asked {caller : Account} {text record other : Text} {time : Number}
    {taken answer : Bool} :
    .wrote record taken ∈ HostCall.asked caller text time ++ [.wrote other answer] ↔
      record = other ∧ taken = answer := by
  simp [HostCall.asked]

theorem HostCall.foldl_leaves_of_untaken {calls : List HostCall}
    (untaken : ∀ record, .wrote record true ∉ calls) (before : Text) :
    calls.foldl HostCall.leaves before = before := by
  induction calls with
  | nil => rfl
  | cons call calls induction =>
      have first : call.leaves before = before := by
        rcases call with caller | record | time | ⟨record, _ | _⟩
        case wrote.true => exact absurd List.mem_cons_self (untaken record)
        all_goals rfl
      rw [List.foldl_cons, first]
      exact induction fun record member => untaken record (List.mem_cons_of_mem _ member)

namespace Dispatcher

variable {σ : Type} (dispatcher : Dispatcher σ)

/-- The host stores the records that it takes, and nothing else changes what is stored.
Nothing is said about what a read answers. -/
structure Stores (stored : σ → Text) : Prop where
  answers_leave : ∀ {state next : σ} {call : HostCall},
    dispatcher.host.Answers state next call → stored next = call.leaves (stored state)
  log_keeps : ∀ line state, stored ((dispatcher.log line).run state).2 = stored state

variable {dispatcher} {stored : σ → Text}

namespace Stores

variable (stores : dispatcher.Stores stored) {action : Action} {state last : σ}

include stores

theorem path_leaves {calls : List HostCall} (path : dispatcher.host.Path state calls last) :
    stored last = calls.foldl HostCall.leaves (stored state) := by
  induction path with
  | nil => rfl
  | cons answered later induction => rw [induction, stores.answers_leave answered, List.foldl_cons]

theorem logged_keeps (outcome : Outcome Receipt) :
    stored (dispatcher.logged action outcome state) = stored state := by
  rcases outcome with (failure | argument) | receipt
  · exact stores.log_keeps _ _
  · rfl
  · exact stores.log_keeps _ _

end Stores

/-! ## Atomicity -/

variable (dispatcher) in
/-- What the calls of a dispatch, its end and what is stored before and behind it have to
do with each other. -/
structure Atomic (stored : σ → Text) (action : Action) (before after : σ)
    (calls : List HostCall) (ended : Except Interruption Int) : Prop where
  writes_le : calls.countP HostCall.isWrite ≤ 1
  /-- Two equal callers, a record and a 32-bit time were answered before a write, and the
  action on these has made what is written. -/
  write_justified : ∀ record taken, .wrote record taken ∈ calls →
    ∃ caller text now receipt, now ≤ maxU32 ∧
      action.apply dispatcher.params text caller (now : Number) = .ok receipt ∧
      receipt.record = record ∧
      calls = [.identified (some caller), .identified (some caller), .read (some text),
        .told (now : Number), .wrote record taken]
  accepted_iff : ended = .ok 1 ↔ ∃ record, .wrote record true ∈ calls
  accepted_stored : ∀ record, .wrote record true ∈ calls → stored after = record
  otherwise_kept : (∀ record, .wrote record true ∉ calls) → stored after = stored before
  /-- The course says which answer was the first that was not good enough. -/
  otherwise_refused : (∀ record, .wrote record true ∉ calls) →
    (∀ account, .identified (some account) ∈ calls → account.length = Account.size) →
    action.WellTyped →
    ∃ failure, Course dispatcher.params action calls (Outcome.refuse failure) ∧
      ended = .ok failure.code.exitCode ∧ failure.code.exitCode < 0

end Dispatcher

namespace Course

variable {params : Params} {action : Action} {calls : List HostCall}
  {outcome : Outcome Receipt}

theorem writes_le (course : Course params action calls outcome) :
    calls.countP HostCall.isWrite ≤ 1 := by
  cases course <;> simp [HostCall.asked, HostCall.isWrite]

theorem write_justified (course : Course params action calls outcome) {record : Text}
    {taken : Bool} (wrote : .wrote record taken ∈ calls) :
    ∃ caller text now receipt, now ≤ maxU32 ∧
      action.apply params text caller (now : Number) = .ok receipt ∧
      receipt.record = record ∧
      calls = HostCall.asked caller text now ++ [.wrote record taken] := by
  cases course with
  | unwritten fits applied | written fits applied =>
      rcases HostCall.wrote_mem_asked.mp wrote with ⟨rfl, rfl⟩
      exact ⟨_, _, _, _, fits, applied, rfl, rfl⟩
  | _ => simp [HostCall.asked] at wrote

/-- A record was taken exactly when the action has come to a receipt, and then it is the
record of the receipt. -/
theorem wrote_iff (course : Course params action calls outcome) (record : Text) :
    .wrote record true ∈ calls ↔ ∃ receipt, outcome = .ok receipt ∧ receipt.record = record := by
  cases course <;> simp [HostCall.asked, Outcome.refuse, eq_comm]

/-- Accounts and well-typed actions give no argument to fault. -/
theorem wellTyped (course : Course params action calls outcome) (wellTyped : action.WellTyped)
    (identifies : ∀ account, .identified (some account) ∈ calls →
      account.length = Account.size) : outcome.WellTyped := by
  cases course with
  | @failed caller record now fault fits fails =>
      have size : caller.length = Account.size := identifies caller List.mem_cons_self
      exact fails ▸ Action.apply_wellTyped params record size fits wellTyped
  | written => exact Outcome.wellTyped_ok _
  | _ => exact Outcome.wellTyped_refuse _

end Course

namespace Dispatcher

variable {σ : Type} {dispatcher : Dispatcher σ} {stored : σ → Text}

theorem exitCode_eq_one_iff (outcome : Outcome Receipt) :
    exitCode outcome = .ok 1 ↔ ∃ receipt, outcome = .ok receipt := by
  rcases outcome with (failure | argument) | receipt
  · have negative := failure.code.exitCode_neg
    simp [exitCode]
    omega
  · simp [exitCode]
  · simp [exitCode, successExitCode]

theorem atomic_of_course (stores : dispatcher.Stores stored) {action : Action}
    {calls : List HostCall} {outcome : Outcome Receipt} {before last : σ}
    (course : Course dispatcher.params action calls outcome)
    (path : dispatcher.host.Path before calls last) :
    dispatcher.Atomic stored action before (dispatcher.logged action outcome last) calls
      (exitCode outcome) where
  writes_le := course.writes_le
  write_justified _ _ wrote := course.write_justified wrote
  accepted_iff := by
    simp only [exitCode_eq_one_iff, course.wrote_iff]
    constructor
    · rintro ⟨receipt, done⟩
      exact ⟨_, receipt, done, rfl⟩
    · rintro ⟨record, receipt, done, -⟩
      exact ⟨receipt, done⟩
  accepted_stored record wrote := by
    rw [stores.logged_keeps, stores.path_leaves path]
    rcases course.write_justified wrote with ⟨caller, text, now, receipt, -, -, -, rfl⟩
    rfl
  otherwise_kept untaken := by
    rw [stores.logged_keeps, stores.path_leaves path, HostCall.foldl_leaves_of_untaken untaken]
  otherwise_refused untaken identifies wellTyped := by
    have proper := course.wellTyped wellTyped identifies
    rcases outcome with (failure | argument) | receipt
    · exact ⟨failure, course, rfl, failure.code.exitCode_neg⟩
    · exact absurd rfl (proper argument)
    · exact absurd ((course.wrote_iff _).mpr ⟨receipt, rfl, rfl⟩) (untaken _)

/-- Every dispatch on which no hook has a say is atomic. -/
theorem dispatch_atomic (stores : dispatcher.Stores stored) {action : Action}
    (plain : dispatcher.Plain action) (before : σ) :
    ∃ calls ended after,
      (dispatcher.watched.dispatchExitCode action).on { state := before, calls := [] } =
        (ended, { state := after, calls }) ∧
      (dispatcher.dispatchExitCode action).on before = (ended, after) ∧
      dispatcher.Atomic stored action before after calls ended := by
  rcases exists_course dispatcher.params action dispatcher.host before with
    ⟨calls, outcome, last, course, path⟩
  have watched := run_of_course plain.watched course (path.watched [])
  rw [List.nil_append] at watched
  refine ⟨calls, exitCode outcome, dispatcher.logged action outcome last, ?_, ?_, ?_⟩
  · rw [dispatchExitCode_of_run watched, logged_watched]
  · exact dispatchExitCode_of_run (run_of_course plain course path)
  · exact atomic_of_course stores course path

end Dispatcher

/-! ## A host that refuses what it is given -/

namespace Sample

/-- Bob calls, and the first write is refused. -/
def refusing : FaultyHost where
  memory := { record := start, caller := some bob, now := 7 }
  faults := { writes := [false] }

theorem dispatcher_stores : dispatcher.Stores (·.memory.record) where
  answers_leave {state next call} answered := by
    rcases state with ⟨memory, ⟨callers, reads, writes⟩⟩
    rcases call with caller | record | time | ⟨record, taken⟩
    · rcases callers with _ | ⟨caller, callers⟩ <;> cases answered <;> rfl
    · rcases reads with _ | ⟨_ | _, reads⟩ <;> cases answered <;> rfl
    · cases answered
      rfl
    · rcases writes with _ | ⟨_ | _, writes⟩ <;> cases answered <;> rfl
  log_keeps _ _ := rfl

/-- What is asked for Bob, and what is written for him. -/
def refusedCalls : List HostCall :=
  HostCall.asked bob start 7 ++
    [.wrote (recordAfter params start [{ caller := bob, now := 7, action := .selfRegister }])
      false]

end Sample

theorem sample_refused_write :
    ∃ after : FaultyHost,
      (Sample.dispatcher.watched.dispatchExitCode .selfRegister).on
          { state := Sample.refusing, calls := [] } =
        (.ok (-5), { state := after, calls := Sample.refusedCalls }) ∧
      after.memory.record = Sample.start ∧
      ∃ failure, Course Sample.params .selfRegister Sample.refusedCalls
          (Outcome.refuse failure) ∧ failure.code.exitCode = -5 := by
  have plain : Sample.dispatcher.Plain .selfRegister := .inr nofun
  rcases Dispatcher.dispatch_atomic Sample.dispatcher_stores plain Sample.refusing with
    ⟨calls, ended, after, watched, -, atomic⟩
  have answered :
      ((Sample.dispatcher.watched.dispatchExitCode .selfRegister).on
          { state := Sample.refusing, calls := [] }).1 = .ok (-5) ∧
        ((Sample.dispatcher.watched.dispatchExitCode .selfRegister).on
          { state := Sample.refusing, calls := [] }).2.calls = Sample.refusedCalls := by
    decide +kernel
  rw [watched] at answered
  rcases answered with ⟨rfl, rfl⟩
  have untaken : ∀ record, .wrote record true ∉ Sample.refusedCalls := fun record taken =>
    nomatch (HostCall.wrote_mem_asked.mp taken).2
  have identifies : ∀ account, .identified (some account) ∈ Sample.refusedCalls →
      account.length = Account.size := by
    intro account answered
    have same : account = Sample.bob := by
      simpa [Sample.refusedCalls, HostCall.asked] using answered
    rw [same]
    rfl
  rcases atomic.otherwise_refused untaken identifies trivial with ⟨failure, course, code, -⟩
  exact ⟨after, watched, atomic.otherwise_kept untaken, failure, course,
    (Except.ok.inj code).symm⟩

end LedgerGovernance
