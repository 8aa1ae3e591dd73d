import LedgerGovernance.Proofs.Dispatch.Executions
import LedgerGovernance.Proofs.Dispatch.Memory
import LedgerGovernance.Proofs.Nesting.SideEffects

/-! A hook that does nothing makes no difference. The dispatcher goes another way for it,
over a locked record that it stores and reads again, and yet every execution ends with the
same result as without a hook. What may be left behind is a released lock, and this only on
records that no sequence of dispatches leads to. -/

namespace LedgerGovernance

namespace Execution

variable {params : Params} {record locked : Text} {proposalId now : Number}

/-- What keeps an operation from being executable keeps it from being executed. -/
theorem complete_of_validate_error {fault : Fault}
    (refused : validate params locked proposalId now = .error fault) :
    complete params locked proposalId now = .error fault := by
  rw [complete, Outcome.bind_eq_error]
  rcases Outcome.bind_eq_error.mp refused with illTyped | ⟨id, idEq, refused⟩
  · exact .inl illTyped
  refine .inr ⟨id, idEq, Outcome.bind_eq_error.mpr ?_⟩
  rcases Outcome.bind_eq_error.mp refused with unscheduled | ⟨index, found, refused⟩
  · exact .inl unscheduled
  refine .inr ⟨index, found, Outcome.bind_eq_error.mpr (.inl ?_)⟩
  rcases Outcome.bind_eq_error.mp refused with unchecked | ⟨checked, -, checked⟩
  · exact Outcome.bind_eq_error.mpr (.inl unchecked)
  · cases checked

end Execution

/-! ## Executions on a host in memory -/

namespace MemoryHost

/-- The dispatcher of the host, without a hook. -/
def unhooked (params : Params) : Dispatcher MemoryHost where
  host
  params

/-- The dispatcher of the host, with a hook that does nothing. -/
def idling (params : Params) : Dispatcher MemoryHost where
  host
  params
  onExecute := some fun _ => pure ()

end MemoryHost

/-- What an execution comes to around an idle hook, and the record behind it. -/
inductive IdlyExecuted (params : Params) (record : Text) (caller : Account)
    (proposalId now : Number) : Outcome Receipt → Text → Prop
  | refused {fault : Fault} : IdlyExecuted params record caller proposalId now (.error fault) record
  | completed {receipt : Receipt} :
      IdlyExecuted params record caller proposalId now (.ok receipt) receipt.record
  | released {locked released : Text} {id index : Nat} {failure : Failure}
      (started : Execution.start params record caller = .ok locked)
      (valid : Execution.validate params locked (id : Number) now = .ok index)
      (incomplete : Execution.complete params locked (id : Number) now =
        .error (.refused failure))
      (releasing : Proposals.setLock params record false = .ok released) :
      IdlyExecuted params record caller proposalId now (.error (.refused failure)) released

theorem executeAround_idle (params : Params) (memory : MemoryHost) (caller : Account)
    (proposalId : Number) (now : Nat) :
    let outcome := (Action.execute proposalId).apply params memory.record caller (now : Number)
    ∃ final, IdlyExecuted params memory.record caller proposalId now outcome final ∧
      ((MemoryHost.idling params).executeAround (fun _ => pure ()) memory.record caller proposalId
        now).on memory = (outcome.mapError .fault, memory.withRecord final) := by
  have applied : (Action.execute proposalId).apply params memory.record caller (now : Number) = (do
      let locked ← Execution.start params memory.record caller
      let record ← Execution.complete params locked proposalId (now : Number)
      return { record, proposalId := proposalId.upTo? maxU32 }) := by
    rw [Action.apply, Execution.run, bind_assoc]
  dsimp only
  rw [applied]
  cases started : Execution.start params memory.record caller with
  | error fault =>
      refine ⟨_, .refused, ?_⟩
      rw [(MemoryHost.idling params).executeAround_of_start_error started]
      rfl
  | ok locked =>
      rw [Outcome.ok_bind]
      cases valid : Execution.validate params locked proposalId (now : Number) with
      | error fault =>
          rw [Execution.complete_of_validate_error valid, Outcome.error_bind]
          refine ⟨_, .refused, ?_⟩
          rw [(MemoryHost.idling params).executeAround_of_validate_error
            started valid]
          rfl
      | ok index =>
          rcases Outcome.bind_eq_ok.mp valid with ⟨id, idEq, -⟩
          rcases Number.u32_eq_ok.mp idEq with ⟨rfl, fits⟩
          rw [(MemoryHost.idling params).executeAround_of_validate started
            valid fits (MemoryHost.inMemory.writes memory locked)]
          -- An idle hook leaves the record as it is stored, so it is completed as it stands.
          change ∃ final, _ ∧ ((MemoryHost.idling params).complete id now).on
            (memory.withRecord locked) = _
          have reading := MemoryHost.inMemory.reads (memory.withRecord locked)
          cases completing : Execution.complete params locked (id : Number) (now : Number) with
          | ok final =>
              rw [Outcome.ok_bind, Number.upTo?_eq_some.mpr ⟨rfl, fits⟩]
              refine ⟨_, .completed, ?_⟩
              rw [(MemoryHost.idling params).complete_of_ok reading completing
                (MemoryHost.inMemory.writes _ _)]
              rfl
          | error fault =>
              cases fault with
              | illTyped argument =>
                  exact absurd completing (Execution.complete_wellTyped _ _ fits _ argument)
              | refused failure =>
                  rcases Execution.releaseLock_of_start started with ⟨released, releasing⟩
                  have locking := Execution.setLock_of_start started
                  have unlocking : Proposals.setLock params memory.record false = .ok released :=
                    (Proposals.setLock_setLock false locking).symm.trans releasing
                  refine ⟨released, .released started valid completing unlocking, ?_⟩
                  rw [(MemoryHost.idling params).complete_of_refused reading completing
                    releasing (MemoryHost.inMemory.writes _ _)]
                  rfl

theorem dispatch_unhooked (params : Params) (memory : MemoryHost) (action : Action) :
    ((MemoryHost.unhooked params).dispatch action).on memory =
      let outcome := memory.outcome params memory.caller action
      (outcome.mapError .fault, memory.after outcome) := by
  rw [Dispatcher.dispatch_on_of_quiet fun _ _ => rfl,
    Dispatcher.run_on_memory MemoryHost.inMemory memory (.inl rfl)]
  rfl

/-- Without a caller or a second of ledger time, no execution is tried. -/
theorem dispatch_idling (params : Params) (memory : MemoryHost) (proposalId : Number) :
    let outcome := memory.outcome params memory.caller (.execute proposalId)
    ∃ final, ((MemoryHost.idling params).dispatch (.execute proposalId)).on memory =
        (outcome.mapError .fault, memory.withRecord final) ∧
      ((∃ fault, outcome = .error fault ∧ final = memory.record) ∨
        ∃ caller now, IdlyExecuted params memory.record caller proposalId now outcome final) := by
  dsimp only
  rw [Dispatcher.dispatch_on_of_quiet fun _ _ => rfl, Dispatcher.run_eq, Call.on_bind,
    Dispatcher.survey_on_memory MemoryHost.inMemory, MemoryHost.outcome]
  cases memory.asked memory.caller with
  | error fault => exact ⟨memory.record, rfl, .inl ⟨fault, rfl, rfl⟩⟩
  | ok asked =>
      rcases asked with ⟨caller, now⟩
      rcases executeAround_idle params memory caller proposalId now with ⟨final, went, ran⟩
      exact ⟨final, ran, .inr ⟨caller, now, went⟩⟩

/-! ## Records that dispatches lead to -/

/-- A record that was seeded with members, or that a dispatch has left in a host in memory.
Each dispatch may have parameters and a hook of its own. -/
inductive Reached : Text → Prop
  | seeded {record : Text} (seeded : Seeded record) : Reached record
  | dispatched {memory : MemoryHost} (params : Params) (action : Action)
      (reached : Reached memory.record) :
      Reached (((MemoryHost.unhooked params).dispatch action).on memory).2.record
  | played {memory : MemoryHost} (params : Params) (turn : Turn)
      (reached : Reached memory.record) : Reached (turn.play params memory).2.memory.record

theorem Reached.sound {record : Text} (reached : Reached record) : Sound record := by
  induction reached with
  | seeded seeded => exact seeded.sound
  | @dispatched memory params action _ induction =>
      rw [dispatch_unhooked]
      dsimp only
      cases done : memory.outcome params memory.caller action with
      | error fault => exact induction
      | ok receipt =>
          rcases Outcome.bind_eq_ok.mp done with ⟨⟨caller, now⟩, -, applied⟩
          have next := induction.next params { caller, now, action }
          have made : ({ caller, now, action } : Move).outcome params memory.record =
              .ok receipt := applied
          rw [Move.next, made] at next
          exact next
  | played params turn _ induction => exact Turn.sound induction turn

/-- On a sound record, what was found to be executable is executed. -/
theorem Sound.exists_complete {params : Params} {record locked : Text} {caller : Account}
    {id index : Nat} {now : Number} (sound : Sound record)
    (started : Execution.start params record caller = .ok locked)
    (valid : Execution.validate params locked (id : Number) now = .ok index) :
    ∃ final, Execution.complete params locked (id : Number) now = .ok final := by
  rcases (sound.start started).booked_of_validate valid with
    ⟨place, booking, ⟨⟨ledger, holds, coherent, placed⟩, tame⟩, rfl, ready⟩
  exact holds.exists_complete coherent placed (Execution.held_of_start started) tame ready

/-! ## No difference -/

/-- How an execution with an idle hook goes, beside the one without a hook. -/
structure IdleHookAgrees (params : Params) (memory : MemoryHost)
    (plain hooked : Except Interruption Receipt × MemoryHost) : Prop where
  result_eq : hooked.1 = plain.1
  host_eq : ∀ receipt, plain.1 = .ok receipt → hooked.2 = plain.2
  plain_kept : ∀ interruption, plain.1 = .error interruption → plain.2 = memory
  hooked_kept : ∀ interruption, plain.1 = .error interruption → hooked.2 = memory ∨
    ∃ released, Proposals.setLock params memory.record false = .ok released ∧
      hooked.2 = memory.withRecord released
  reached_kept : Reached memory.record → ∀ interruption, plain.1 = .error interruption →
    hooked.2 = memory

theorem IdleHookAgrees.of_failed (params : Params) (memory : MemoryHost) (fault : Fault) :
    IdleHookAgrees params memory (.error (.fault fault), memory)
      (.error (.fault fault), memory) where
  result_eq := rfl
  host_eq := nofun
  plain_kept _ _ := rfl
  hooked_kept _ _ := .inl rfl
  reached_kept _ _ _ := rfl

theorem idle_hook_agrees (params : Params) (memory : MemoryHost) (proposalId : Number) :
    IdleHookAgrees params memory
      (((MemoryHost.unhooked params).dispatch (.execute proposalId)).on memory)
      (((MemoryHost.idling params).dispatch (.execute proposalId)).on memory) := by
  rw [dispatch_unhooked]
  rcases dispatch_idling params memory proposalId with ⟨final, ran, went⟩
  dsimp only at ran went ⊢
  rw [ran]
  generalize memory.outcome params memory.caller (.execute proposalId) = outcome at went
  rcases went with ⟨fault, rfl, rfl⟩ | ⟨caller, now, went⟩
  · exact .of_failed params memory fault
  cases went with
  | @refused fault => exact .of_failed params memory fault
  | @completed receipt =>
      constructor
      case result_eq | host_eq => intros; rfl
      all_goals exact nofun
  | released started valid incomplete releasing =>
      constructor
      case result_eq | plain_kept => intros; rfl
      case host_eq => exact nofun
      case hooked_kept => exact fun _ _ => .inr ⟨_, releasing, rfl⟩
      case reached_kept =>
        intro reached
        rcases reached.sound.exists_complete started valid with ⟨final, completing⟩
        cases incomplete.symm.trans completing

/-- Where the proposal has lost its state, an idle hook leaves a released lock behind. -/
example :
    let queued := recordAfter Sample.params Sample.start (Sample.moves.take 5)
    let record := ((Draft.ofRecord queued).remove (Key.proposal 0 .state).text).toRecord
    let memory : MemoryHost := { record, caller := some Sample.alice, now := 136 }
    let recordBehind (dispatcher : Dispatcher MemoryHost) :=
      ((dispatcher.dispatch (.execute Sample.id)).on memory).2.record
    recordBehind (MemoryHost.unhooked Sample.params) = record ∧
      recordBehind (MemoryHost.idling Sample.params) = record ++ ";_lock=0".toList := by
  decide +kernel

end LedgerGovernance
