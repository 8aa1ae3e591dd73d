import LedgerGovernance.Host.Memory
import LedgerGovernance.Proofs.Dispatch.Courses

/-! Dispatches to a host in memory. Such a host never fails, so a dispatch without a hook
comes to what its action comes to, once there is a caller and the time is a second of
ledger time. -/

namespace LedgerGovernance

namespace MemoryHost

/-- The host with another record. -/
def withRecord (memory : MemoryHost) (record : Text) : MemoryHost :=
  { memory with record }

/-- The caller and the second of ledger time, if the host has both to tell. -/
def asked (memory : MemoryHost) (caller : Option Account) : Outcome (Account × Nat) :=
  match caller, memory.now.upTo? maxU32 with
  | none, _ => Outcome.refuse .callerUnknown
  | some _, none => Outcome.refuse (.invalidTime memory.now)
  | some caller, some now => .ok (caller, now)

theorem asked_eq_ok {memory : MemoryHost} {caller : Option Account} {account : Account}
    {now : Nat} : memory.asked caller = .ok (account, now) ↔
      caller = some account ∧ memory.now.upTo? maxU32 = some now := by
  unfold asked
  cases caller <;> cases memory.now.upTo? maxU32 <;> simp

/-- What an action comes to on the record of the host. -/
def outcome (params : Params) (memory : MemoryHost) (caller : Option Account)
    (action : Action) : Outcome Receipt := do
  let (caller, now) ← memory.asked caller
  action.apply params memory.record caller (now : Number)

theorem outcome_eq_ok {params : Params} {memory : MemoryHost} {caller : Option Account}
    {action : Action} {receipt : Receipt} :
    memory.outcome params caller action = .ok receipt ↔
      ∃ account now, caller = some account ∧ memory.now.upTo? maxU32 = some now ∧
        action.apply params memory.record account (now : Number) = .ok receipt := by
  simp only [outcome, Outcome.bind_eq_ok, Prod.exists, asked_eq_ok, and_assoc]

/-- The host behind an action: an action that failed has changed nothing. -/
def after (memory : MemoryHost) : Outcome Receipt → MemoryHost
  | .ok receipt => memory.withRecord receipt.record
  | .error _ => memory

end MemoryHost

/-- A host in memory, to which all calls come from a caller of their own. -/
structure Host.InMemory (host : Host MemoryHost) (caller : MemoryHost → Option Account) :
    Prop where
  reads : ∀ memory, host.readRecord.run memory = (some memory.record, memory)
  writes : ∀ memory record,
    (host.writeRecord record).run memory = (true, memory.withRecord record)
  identifies : ∀ memory, host.callerIdentity.run memory = (caller memory, memory)
  tells : ∀ memory, host.currentTime.run memory = (memory.now, memory)

theorem MemoryHost.inMemory : MemoryHost.host.InMemory MemoryHost.caller :=
  ⟨fun _ => rfl, fun _ _ => rfl, fun _ => rfl, fun _ => rfl⟩

theorem Host.InMemory.forCaller {host : Host MemoryHost}
    {caller : MemoryHost → Option Account} (inMemory : host.InMemory caller)
    (account : Account) : (host.forCaller account).InMemory fun _ => some account :=
  ⟨inMemory.reads, inMemory.writes, fun _ => rfl, inMemory.tells⟩

namespace Dispatcher

variable {dispatcher : Dispatcher MemoryHost} {caller : MemoryHost → Option Account}
  (inMemory : dispatcher.host.InMemory caller) (memory : MemoryHost) {action : Action}

include inMemory

theorem survey_on_memory :
    dispatcher.survey.on memory = (((memory.asked (caller memory)).map
      fun (account, now) => (account, memory.record, now)).mapError .fault, memory) := by
  cases called : caller memory with
  | none =>
      rw [survey_on, inMemory.identifies, called]
      rfl
  | some account =>
      simp only [survey_on, inMemory.identifies, inMemory.reads, inMemory.tells, called, if_true,
        MemoryHost.asked]
      cases memory.now.upTo? maxU32 <;> rfl

theorem run_on_memory (plain : dispatcher.Plain action) :
    (dispatcher.run action).on memory =
      let outcome := memory.outcome dispatcher.params (caller memory) action
      (outcome.mapError .fault, memory.after outcome) := by
  rw [run_eq, Call.on_bind, survey_on_memory inMemory, MemoryHost.outcome]
  cases memory.asked (caller memory) with
  | error fault => rfl
  | ok asked =>
      rcases asked with ⟨account, now⟩
      change (dispatcher.perform action memory.record account now).on memory = _
      rw [perform_of_plain plain]
      change _ = ((action.apply dispatcher.params memory.record account (now : Number)).mapError
        _, memory.after (action.apply dispatcher.params memory.record account (now : Number)))
      cases applied : action.apply dispatcher.params memory.record account (now : Number) with
      | error fault => rfl
      | ok receipt =>
          rw [Call.on_ofOutcome_ok_bind rfl, commit, Call.on_lift_bind, inMemory.writes]
          rfl

end Dispatcher

end LedgerGovernance
