import LedgerGovernance.Proofs.Nesting.Scripts

/-! Turns of a host in memory. A turn is one dispatch from outside, with a hook that plays
a script. Whatever the script, there are few ways a turn can go; they are told apart here
once, with the record that each of them leaves. -/

namespace LedgerGovernance

namespace Observed

variable {params : Params} {onExecute : Option (ExecutionHook Observed)} {observed : Observed}
  {move : Move} {action : Action}

/-! ## Single calls -/

theorem dispatch_on :
    ((dispatcher params onExecute).dispatch action).on observed =
      ((dispatcher params onExecute).run action).on observed :=
  Dispatcher.dispatch_on_of_quiet fun _ _ => rfl

/-- The host tells the caller, the record and the time as they are. -/
theorem run_on (proper : move.Proper) :
    ((dispatcher params onExecute).run action).on (observed.receive move) =
      ((dispatcher params onExecute).perform action observed.memory.record move.caller
        move.now).on (observed.receive move) := by
  have caller : (dispatcher params onExecute).verifyCaller.on (observed.receive move) =
      (.ok move.caller, observed.receive move) := by
    have asked : (if some move.caller = some move.caller then pure move.caller
        else Call.refuse .callerChanged : Call Observed Account).on (observed.receive move) =
        (.ok move.caller, observed.receive move) := by
      rw [if_pos rfl]
      rfl
    exact asked
  have time : (dispatcher params onExecute).readTime.on (observed.receive move) =
      (.ok move.now, observed.receive move) := by
    have upTo : (move.now : Number).upTo? maxU32 = some move.now :=
      Number.upTo?_eq_some.mpr ⟨rfl, proper.now_le⟩
    have told : (dispatcher params onExecute).host.currentTime.run (observed.receive move) =
        ((move.now : Number), observed.receive move) := rfl
    rw [Dispatcher.readTime, Call.on_lift_bind, told]
    dsimp only
    rw [upTo]
    rfl
  rw [Dispatcher.run, Call.on_bind, caller]
  dsimp only
  rw [Call.on_bind]
  have record : (dispatcher params onExecute).readRecord.on (observed.receive move) =
      (.ok observed.memory.record, observed.receive move) := rfl
  rw [record]
  dsimp only
  rw [Call.on_bind, time]

/-- What is not the concern of a hook is a plain move. -/
theorem perform_plain (plain : onExecute = none ∨ ∀ id, move.action ≠ .execute id) :
    ((dispatcher params onExecute).perform move.action observed.memory.record move.caller
        move.now).on (observed.receive move) =
      ((move.outcome params observed.memory.record).mapError .fault,
        (observed.receive move).withRecord (move.next params observed.memory.record)) := by
  have applied : (dispatcher params onExecute).perform move.action observed.memory.record
      move.caller move.now = (do
        let receipt ← Call.ofOutcome (move.outcome params observed.memory.record)
        (dispatcher params onExecute).commit receipt) := by
    unfold Dispatcher.perform
    split
    · rename_i id hook executes hooked
      rcases plain with unhooked | other
      · rw [unhooked] at hooked
        cases hooked
      · exact absurd executes (other id)
    · rfl
  rw [applied]
  unfold Move.next
  cases done : move.outcome params observed.memory.record with
  | ok receipt => rfl
  | error fault => rfl

/-! ## Executions with a hook -/

section

variable {hook : ExecutionHook Observed} {record locked : Text} {proposalId : Number}
  {caller : Account} {now : Nat}

theorem release_run {released : Text}
    (releasing : Execution.releaseLock params record = .ok released) :
    ((dispatcher params onExecute).release record).run observed =
      (.ok (), observed.withRecord released) :=
  (dispatcher params onExecute).release_run releasing rfl

/-- Once the operation is known to be executable, the hook runs on the locked record. -/
theorem executeAround_of_validate {id index : Nat}
    (started : Execution.start params record caller = .ok locked)
    (valid : Execution.validate params locked (id : Number) (now : Number) = .ok index)
    (fits : id ≤ maxU32) :
    ((dispatcher params onExecute).executeAround hook record caller (id : Number) now).on
        observed =
      ((dispatcher params onExecute).runHook hook locked
        { proposalId := id, caller, now }).on (observed.withRecord locked) :=
  (dispatcher params onExecute).executeAround_of_validate started valid fits rfl

/-! ## Behind a hook -/

theorem complete_of_ok {id : Nat} {final : Text}
    (completing : Execution.complete params observed.memory.record (id : Number)
      (now : Number) = .ok final) :
    ((dispatcher params onExecute).complete id now).on observed =
      (.ok { record := final, proposalId := some id }, observed.withRecord final) :=
  (dispatcher params onExecute).complete_of_ok rfl completing rfl

theorem complete_of_refused {id : Nat} {failure : Failure} {released : Text}
    (completing : Execution.complete params observed.memory.record (id : Number)
      (now : Number) = .error (.refused failure))
    (releasing : Execution.releaseLock params observed.memory.record = .ok released) :
    ((dispatcher params onExecute).complete id now).on observed =
      (.error (.fault (.refused failure)), observed.withRecord released) :=
  (dispatcher params onExecute).complete_of_refused rfl completing releasing rfl

end

/-! ## Dispatches -/

theorem dispatch_plain (proper : move.Proper)
    (plain : onExecute = none ∨ ∀ id, move.action ≠ .execute id) :
    ((dispatcher params onExecute).dispatch move.action).on (observed.receive move) =
      ((move.outcome params observed.memory.record).mapError .fault,
        (observed.receive move).withRecord (move.next params observed.memory.record)) := by
  rw [dispatch_on, run_on proper, perform_plain plain]

theorem dispatch_hooked {hook : ExecutionHook Observed} {proposalId : Number}
    (proper : move.Proper) (executes : move.action = .execute proposalId) :
    ((dispatcher params (some hook)).dispatch move.action).on (observed.receive move) =
      ((dispatcher params (some hook)).executeAround hook observed.memory.record move.caller
        proposalId move.now).on (observed.receive move) := by
  rw [dispatch_on, run_on proper, executes]
  rfl

/-- Under the lock every dispatch is a plain move, for its hook is not reached. -/
theorem dispatch_held (held : Execution.Held params observed.memory.record)
    (proper : move.Proper) :
    ((dispatcher params onExecute).dispatch move.action).on (observed.receive move) =
      ((move.outcome params observed.memory.record).mapError .fault,
        (observed.receive move).withRecord (move.next params observed.memory.record)) := by
  by_cases plain : onExecute = none ∨ ∀ id, move.action ≠ .execute id
  · exact dispatch_plain proper plain
  · simp only [not_or, not_forall, Decidable.not_not] at plain
    rcases plain with ⟨hooked, id, executes⟩
    rcases Option.ne_none_iff_exists'.mp hooked with ⟨hook, rfl⟩
    have denied : move.outcome params observed.memory.record =
        .error (.refused (Execution.denial observed.memory.record move.caller)) := by
      rw [Move.outcome, executes, Action.apply,
        Execution.run_of_locked proper.caller_size held.locked]
      rfl
    have starting : Execution.start params observed.memory.record move.caller =
        .error (.refused (Execution.denial observed.memory.record move.caller)) :=
      Execution.start_of_locked proper.caller_size held.locked
    rw [dispatch_hooked proper executes,
      (dispatcher params (some hook)).executeAround_of_start_error starting, Move.next, denied]
    rfl

end Observed

/-! ## Scripts under the lock -/

/-- Dispatches one after another on a record under the lock: each of them is a move. -/
inductive Follows (params : Params) : Text → List NestedDispatch → Prop
  | nil {record : Text} : Follows params record []
  | cons {record : Text} {dispatch : NestedDispatch} {rest : List NestedDispatch}
      (proper : dispatch.move.Proper) (held : Execution.Held params record)
      (result_eq : dispatch.result =
        (dispatch.move.outcome params record).mapError .fault)
      (record_eq : dispatch.record = dispatch.move.next params record)
      (later : Follows params dispatch.record rest) : Follows params record (dispatch :: rest)

namespace Follows

variable {params : Params} {record : Text} {dispatches : List NestedDispatch}

/-- What moves under the lock keep holds behind each of them. -/
theorem keeps (follows : Follows params record dispatches) {motive : Text → Prop}
    (met : motive record)
    (step : ∀ (record : Text) (move : Move), Execution.Held params record → move.Proper →
      motive record → motive (move.next params record)) :
    (∀ dispatch ∈ dispatches, motive dispatch.record) ∧
      motive (NestedDispatch.left record dispatches) := by
  induction follows with
  | nil => exact ⟨List.forall_mem_nil _, met⟩
  | @cons record first rest proper held _ record_eq _ induction =>
      have behind : motive first.record := by
        rw [record_eq]
        exact step record first.move held proper met
      rcases induction behind with ⟨each, left⟩
      rw [NestedDispatch.left_cons]
      exact ⟨List.forall_mem_cons.mpr ⟨behind, each⟩, left⟩

theorem held (follows : Follows params record dispatches)
    (met : Execution.Held params record) :
    (∀ dispatch ∈ dispatches, Execution.Held params dispatch.record) ∧
      Execution.Held params (NestedDispatch.left record dispatches) :=
  follows.keeps met fun _ _ held proper _ => held.next proper

theorem left_eq (follows : Follows params record dispatches) :
    NestedDispatch.left record dispatches =
      recordAfter params record (dispatches.map NestedDispatch.move) := by
  induction follows with
  | nil => rfl
  | cons _ _ _ record_eq _ induction =>
      rw [NestedDispatch.left_cons, induction, record_eq]
      rfl

end Follows

namespace Script

variable {params : Params}

theorem play_dispatch (dispatcher : Dispatcher Observed) {move : Move} (proper : move.Proper)
    (next : Except Interruption Receipt → Script) (observed : Observed) :
    ((dispatch move proper next).play dispatcher).run observed =
      let (result, after) := (dispatcher.dispatch move.action).on (observed.receive move)
      let ((rest, reason), last) := ((next result).play dispatcher).run after
      (({ move, result, record := after.memory.record } :: rest, reason), last) :=
  rfl

/-- What a script does under the lock: it makes moves, and nothing is noted but them. -/
theorem follows_of_play {script : Script} {onExecute : Option (ExecutionHook Observed)}
    {observed after : Observed} {dispatches : List NestedDispatch} {reason : Option String}
    (held : Execution.Held params observed.memory.record)
    (played : (script.play (Observed.dispatcher params onExecute)).run observed =
      ((dispatches, reason), after)) :
    Follows params observed.memory.record dispatches ∧ after.runs = observed.runs ∧
      after.memory.record = NestedDispatch.left observed.memory.record dispatches := by
  -- The induction is on the script; that the lock is held carries it from one dispatch on.
  induction script generalizing observed dispatches with
  | ending reason =>
      cases played
      exact ⟨.nil, rfl, rfl⟩
  | dispatch move proper next induction =>
      rw [play_dispatch, Observed.dispatch_held held proper] at played
      dsimp only at played
      rcases later : ((next ((move.outcome params observed.memory.record).mapError .fault)).play
        (Observed.dispatcher params onExecute)).run ((observed.receive move).withRecord
          (move.next params observed.memory.record)) with ⟨⟨rest, ending⟩, last⟩
      rw [later] at played
      cases played
      rcases induction _ (held.next proper) later with ⟨follows, runs, left⟩
      refine ⟨.cons proper held rfl rfl follows, runs, left.trans ?_⟩
      rw [NestedDispatch.left_cons]

/-- Under the lock a script does the same through every dispatcher of the host. -/
theorem play_eq_of_held (script : Script) (onExecute other : Option (ExecutionHook Observed))
    {observed : Observed} (held : Execution.Held params observed.memory.record) :
    (script.play (Observed.dispatcher params onExecute)).run observed =
      (script.play (Observed.dispatcher params other)).run observed := by
  induction script generalizing observed with
  | ending reason => rfl
  | dispatch move proper next induction =>
      rw [play_dispatch, play_dispatch, Observed.dispatch_held held proper,
        Observed.dispatch_held held proper]
      dsimp only
      rw [induction _ (held.next proper)]

theorem hook_run (dispatcher : Dispatcher Observed) (script : ExecutionContext → Script)
    (context : ExecutionContext) (observed : Observed) :
    (Script.hook dispatcher script context).run.run observed =
      let ((dispatches, reason), after) := ((script context).play dispatcher).run observed
      let run : HookRun := { context, met := observed.memory.record, dispatches, reason }
      (run.ending, { after with runs := after.runs ++ [run] }) :=
  rfl

end Script

/-! ## Hooks that play through their own dispatcher -/

section

variable {params : Params} {hook other : ExecutionHook Observed}

/-- Hooks that do the same on every record under the lock. -/
def AgreeUnderLock (params : Params) (hook other : ExecutionHook Observed) : Prop :=
  ∀ context observed, Execution.Held params observed.memory.record →
    (hook context).run.run observed = (other context).run.run observed

/-- Hooks only run under the lock, so those that agree there make no difference. -/
theorem Observed.dispatch_congr (agree : AgreeUnderLock params hook other)
    {move : Move} (proper : move.Proper) (observed : Observed) :
    ((dispatcher params (some hook)).dispatch move.action).on (observed.receive move) =
      ((dispatcher params (some other)).dispatch move.action).on (observed.receive move) := by
  by_cases plain : ∀ id, move.action ≠ .execute id
  · rw [dispatch_plain proper (.inr plain), dispatch_plain proper (.inr plain)]
  simp only [not_forall, Decidable.not_not] at plain
  rcases plain with ⟨proposalId, executes⟩
  rw [dispatch_hooked proper executes, dispatch_hooked proper executes]
  cases started : Execution.start params observed.memory.record move.caller with
  | error fault =>
      rw [(dispatcher params (some hook)).executeAround_of_start_error started,
        (dispatcher params (some other)).executeAround_of_start_error started]
  | ok locked =>
      cases valid : Execution.validate params locked proposalId (move.now : Number) with
      | error fault =>
          rw [(dispatcher params (some hook)).executeAround_of_validate_error started valid,
            (dispatcher params (some other)).executeAround_of_validate_error started valid]
      | ok index =>
          rcases Outcome.bind_eq_ok.mp valid with ⟨id, idEq, -⟩
          rcases Number.u32_eq_ok.mp idEq with ⟨rfl, fits⟩
          rw [executeAround_of_validate started valid fits,
            executeAround_of_validate started valid fits, Dispatcher.runHook,
            Dispatcher.runHook, Call.on_lift_bind, Call.on_lift_bind,
            agree _ _ (Execution.held_of_start started)]
          rfl

theorem Script.play_congr (agree : AgreeUnderLock params hook other)
    (script : Script) (observed : Observed) :
    (script.play (Observed.dispatcher params (some hook))).run observed =
      (script.play (Observed.dispatcher params (some other))).run observed := by
  induction script generalizing observed with
  | ending reason => rfl
  | dispatch move proper next induction =>
      rw [play_dispatch, play_dispatch, Observed.dispatch_congr agree proper]
      simp only [induction]

/-- The nesting hook plays its script through the dispatcher that it is the hook of. -/
theorem nestingHook_eq (script : ExecutionContext → Script) :
    nestingHook params script =
      Script.hook (Observed.dispatcher params (some (nestingHook params script))) script := by
  -- The inner layer is only met under the lock, where it matters to no dispatch.
  have agree : AgreeUnderLock params
      (Script.hook (Observed.dispatcher params none) script) (nestingHook params script) := by
    intro context observed held
    rw [nestingHook, Script.hook_run, Script.hook_run,
      (script context).play_eq_of_held none (some _) held]
  funext context
  change (Script.hook _ script context).run.run = (Script.hook _ script context).run.run
  funext observed
  rw [Script.hook_run, Script.hook_run, Script.play_congr agree]

/-- What a nesting hook does under the lock. -/
theorem nestingHook_run (script : ExecutionContext → Script) (context : ExecutionContext)
    {observed : Observed} (held : Execution.Held params observed.memory.record) :
    ∃ run after, (nestingHook params script context).run.run observed = (run.ending, after) ∧
      run.context = context ∧ run.met = observed.memory.record ∧
        Follows params run.met run.dispatches ∧ after.memory.record = run.left ∧
          after.runs = observed.runs ++ [run] := by
  rcases played : ((script context).play (Observed.dispatcher params
    (some (nestingHook params script)))).run observed with ⟨⟨dispatches, reason⟩, after⟩
  rcases Script.follows_of_play held played with ⟨follows, runs, left⟩
  let run : HookRun := { context, met := observed.memory.record, dispatches, reason }
  refine ⟨run, { after with runs := after.runs ++ [run] }, ?_, rfl, rfl, follows, left, ?_⟩
  · rw [nestingHook_eq, Script.hook_run, played]
  · rw [runs]

end

/-! ## Turns -/

/-- A dispatch from outside. The dispatcher may have a hook, which plays a script through
the dispatcher itself. -/
structure Turn where
  move : Move
  proper : move.Proper
  script : Option (ExecutionContext → Script)

namespace Turn

/-- How a turn ends, and the host behind it. -/
def play (params : Params) (memory : MemoryHost) (turn : Turn) :
    Except Interruption Receipt × Observed :=
  let dispatcher := Observed.dispatcher params (turn.script.map (nestingHook params))
  (dispatcher.dispatch turn.move.action).on { memory := memory.receive turn.move, runs := [] }

/-- An execution that has come as far as its hook, and what the hook did. -/
structure Entered (params : Params) (turn : Turn) (record : Text) (id : Nat)
    (run : HookRun) : Prop where
  executes : turn.move.action = .execute (id : Number)
  id_le : id ≤ maxU32
  context_eq :
    run.context = { proposalId := id, caller := turn.move.caller, now := turn.move.now }
  started : Execution.start params record turn.move.caller = .ok run.met
  valid : ∃ index,
    Execution.validate params run.met (id : Number) (turn.move.now : Number) = .ok index
  follows : Follows params run.met run.dispatches

/-- The ways a turn can go: how it ends, the record behind it, and the hooks that ran. -/
inductive Plays (params : Params) (turn : Turn) (record : Text) :
    Except Interruption Receipt → Text → List HookRun → Prop
  | plain (unhooked : turn.script = none ∨ ∀ id, turn.move.action ≠ .execute id) :
      Plays params turn record ((turn.move.outcome params record).mapError .fault)
        (turn.move.next params record) []
  | refused {fault : Fault} : Plays params turn record (.error (.fault fault)) record []
  | failed {id : Nat} {run : HookRun} {reason : String} {released : Text}
      (entered : turn.Entered params record id run) (fails : run.reason = some reason)
      (releasing : Execution.releaseLock params run.met = .ok released) :
      Plays params turn record (.error (.hookFailed reason)) released [run]
  | completed {id : Nat} {run : HookRun} {final : Text}
      (entered : turn.Entered params record id run) (returns : run.reason = none)
      (completing : Execution.complete params run.left (id : Number)
        (turn.move.now : Number) = .ok final) :
      Plays params turn record (.ok { record := final, proposalId := some id }) final [run]
  | incomplete {id : Nat} {run : HookRun} {failure : Failure} {released : Text}
      (entered : turn.Entered params record id run) (returns : run.reason = none)
      (completing : Execution.complete params run.left (id : Number)
        (turn.move.now : Number) = .error (.refused failure))
      (releasing : Execution.releaseLock params run.left = .ok released) :
      Plays params turn record (.error (.fault (.refused failure))) released [run]

/-- How a turn goes on once the locked record is stored. -/
theorem plays_of_locked {params : Params} {turn : Turn} {record : Text}
    {context : ExecutionContext} {id index : Nat} (observed : Observed)
    (script : ExecutionContext → Script)
    (executes : turn.move.action = .execute (id : Number)) (fits : id ≤ maxU32)
    (contextEq : context =
      { proposalId := id, caller := turn.move.caller, now := turn.move.now })
    (started : Execution.start params record turn.move.caller = .ok observed.memory.record)
    (valid : Execution.validate params observed.memory.record (id : Number)
      (turn.move.now : Number) = .ok index) (unobserved : observed.runs = []) :
    let ended := ((Observed.dispatcher params (some (nestingHook params script))).runHook
      (nestingHook params script) observed.memory.record context).on observed
    turn.Plays params record ended.1 ended.2.memory.record ended.2.runs := by
  have met := Execution.held_of_start started
  rcases nestingHook_run script context met with
    ⟨run, after, ran, sameContext, sameMet, follows, left, runs⟩
  rw [unobserved, List.nil_append] at runs
  rw [← sameMet] at started valid met ⊢
  have entered : turn.Entered params record id run :=
    ⟨executes, fits, sameContext.trans contextEq, started, ⟨index, valid⟩, follows⟩
  have leftHeld : Execution.Held params run.left := (follows.held met).2
  rw [Dispatcher.runHook, Call.on_lift_bind, ran]
  dsimp only
  cases reasonEq : run.reason with
  | some reason =>
      have ending : run.ending = .error reason := by rw [HookRun.ending, reasonEq]
      rw [ending]
      dsimp only
      rw [Call.on_lift_bind, Observed.release_run met.releaseLock_eq]
      change Plays _ _ _ (.error (.hookFailed reason)) _ after.runs
      rw [runs]
      exact .failed entered reasonEq met.releaseLock_eq
  | none =>
      have ending : run.ending = .ok () := by rw [HookRun.ending, reasonEq]
      rw [ending, contextEq]
      dsimp only
      cases completing : Execution.complete params run.left (id : Number)
          (turn.move.now : Number) with
      | ok final =>
          rw [Observed.complete_of_ok (left ▸ completing)]
          change Plays _ _ _ _ _ after.runs
          rw [runs]
          exact .completed entered reasonEq completing
      | error fault =>
          cases fault with
          | illTyped argument =>
              exact absurd completing (Execution.complete_wellTyped _ _ fits _ argument)
          | refused failure =>
              obtain ⟨released, releasing⟩ :
                  ∃ released, Execution.releaseLock params run.left = .ok released :=
                ⟨_, leftHeld.releaseLock_eq⟩
              rw [Observed.complete_of_refused (left ▸ completing) (left.symm ▸ releasing)]
              change Plays _ _ _ _ _ after.runs
              rw [runs]
              exact .incomplete entered reasonEq completing releasing

theorem plays (params : Params) (memory : MemoryHost) (turn : Turn) :
    turn.Plays params memory.record (turn.play params memory).1
      (turn.play params memory).2.memory.record (turn.play params memory).2.runs := by
  have received : ({ memory := memory.receive turn.move, runs := [] } : Observed) =
      ({ memory, runs := [] } : Observed).receive turn.move := rfl
  by_cases plain : turn.script = none ∨ ∀ id, turn.move.action ≠ .execute id
  · have unhooked : turn.script.map (nestingHook params) = none ∨
        ∀ id, turn.move.action ≠ .execute id := plain.imp_left fun none => by rw [none]; rfl
    rw [play, received, Observed.dispatch_plain turn.proper unhooked]
    exact .plain plain
  simp only [not_or, not_forall, Decidable.not_not] at plain
  rcases plain with ⟨hooked, proposalId, executes⟩
  rcases Option.ne_none_iff_exists'.mp hooked with ⟨script, scriptEq⟩
  rw [play, received, scriptEq, Option.map_some, Observed.dispatch_hooked turn.proper executes]
  dsimp only
  cases started : Execution.start params memory.record turn.move.caller with
  | error fault =>
      rw [(Observed.dispatcher params (some (nestingHook params script)))
        |>.executeAround_of_start_error started]
      exact .refused
  | ok locked =>
      cases valid : Execution.validate params locked proposalId (turn.move.now : Number) with
      | error fault =>
          rw [(Observed.dispatcher params (some (nestingHook params script)))
            |>.executeAround_of_validate_error started valid]
          exact .refused
      | ok index =>
          rcases Outcome.bind_eq_ok.mp valid with ⟨id, idEq, -⟩
          rcases Number.u32_eq_ok.mp idEq with ⟨rfl, fits⟩
          rw [Observed.executeAround_of_validate started valid fits]
          exact plays_of_locked
            ((({ memory, runs := [] } : Observed).receive turn.move).withRecord locked)
            script executes fits rfl started valid rfl

end Turn

/-- The host behind some turns. -/
def hostAfter (params : Params) (memory : MemoryHost) (turns : List Turn) : MemoryHost :=
  turns.foldl (fun memory turn => (turn.play params memory).2.memory) memory

/-! ## A hook that tries to execute again -/

namespace Sample

/-- Alice is the only member, and nobody has called yet. -/
def host : MemoryHost where
  record := start
  caller := none
  now := 0

/-- The proposal is made, voted on and queued, without a hook. -/
def turns : List Turn :=
  (moves.take 5).pmap (fun move proper => { move, proper, script := none }) (by decide)

/-- Alice and Bob try to execute once more, Bob delegates to Alice, and if that was done,
the hook fails or not, as given. -/
def script (reason : Option String) : Script :=
  .dispatch { caller := alice, now := 136, action := .execute id } (by decide) fun _ =>
  .dispatch { caller := bob, now := 137, action := .execute id } (by decide) fun _ =>
  .dispatch { caller := bob, now := 0, action := .delegate alice } (by decide) fun result =>
  .ending (if result.isOk then reason else none)

/-- Alice executes her proposal, under a hook that plays the script. -/
def execution (reason : Option String) : Turn where
  move := { caller := alice, now := 136, action := .execute id }
  proper := by decide
  script := some fun _ => script reason

end Sample

end LedgerGovernance
