import LedgerGovernance.Dispatch
import LedgerGovernance.Host.Memory

/-! A rehearsal plays a script against a host in memory: dispatches, changes of the
caller, the time and the record, and answers that the host gets wrong. An
execution hook is part of the script. It plays steps of its own, which may
dispatch again while the outer execution holds the lock. -/

namespace LedgerGovernance

namespace Rehearsal

inductive Step where
  | setCaller (caller : Option Account)
  | setTime (now : Number)
  | advanceTime (seconds : Number)
  | setRecord (record : Text)
  | setFaults (faults : Faults)
  /-- From now on executions run a hook, which plays the steps the first time it
  runs and then fails with the reason, if there is one. -/
  | hook (steps : List Step) (reason : Option String)
  | unhook
  | dispatch (action : Action)
  | exitCode (action : Action)

inductive Answer where
  | done
  | time (now : Number)
  | stored (record : Text)
  | dispatched (action : Action) (result : Except Interruption Receipt) (record : Text)
  | exited (result : Except Interruption Int) (record : Text)
deriving Repr

/-- One run of the hook, with the record that it met and what its steps answered
if it played them. -/
structure HookRun where
  context : ExecutionContext
  record : Text
  answers : Option (List Answer)
deriving Repr

structure Hook where
  steps : List Step
  reason : Option String
  /-- A hook that has run does nothing but note further runs. -/
  played : Bool

structure Stage where
  hosted : FaultyHost
  hook : Option Hook := none
  log : List LogLine := []
  /-- The runs of hooks during the current step of the script, in the order in
  which they began. -/
  runs : List HookRun := []

namespace Stage

def host : Host Stage :=
  FaultyHost.host.within (·.hosted) fun stage hosted => { stage with hosted }

def record (stage : Stage) : Text :=
  stage.hosted.memory.record

def setMemory (change : MemoryHost → MemoryHost) : StateM Stage Unit :=
  modify fun stage =>
    { stage with hosted := { stage.hosted with memory := change stage.hosted.memory } }

def note (line : LogLine) : StateM Stage Unit :=
  modify fun stage => { stage with log := stage.log ++ [line] }

/-- A hook that notes each of its runs and then fails with the reason, if there is
one. -/
def noteRun (reason : Option String) : ExecutionHook Stage := fun context =>
  ExceptT.mk do
    let stage ← get
    let run : HookRun := { context, record := stage.record, answers := none }
    set { stage with runs := stage.runs ++ [run] }
    match reason with
    | some reason => return .error reason
    | none => return .ok ()

end Stage

/-! ## Playing a step -/

/-- The hook of the stage, which plays its steps with `play`. -/
def playHook (play : Step → StateM Stage Answer) : ExecutionHook Stage := fun context =>
  ExceptT.mk do
    let stage ← get
    match stage.hook with
    | some { steps, reason, played := false } =>
        set { stage with hook := some { steps, reason, played := true }, runs := [] }
        let answers ← steps.mapM play
        let run : HookRun := { context, record := stage.record, answers }
        modify fun later => { later with runs := stage.runs ++ run :: later.runs }
        match reason with
        | some reason => return .error reason
        | none => return .ok ()
    | _ => (Stage.noteRun none context).run

/-- The dispatcher of the stage; it has a hook where one is set. -/
def dispatcher (params : Params) (play : Step → StateM Stage Answer) (hooked : Bool) :
    Dispatcher Stage where
  host := Stage.host
  params
  onExecute := if hooked then some (playHook play) else none
  log := Stage.note

/-- Plays one step, with `play` for the steps of a hook that it may set off. -/
def playStep (params : Params) (play : Step → StateM Stage Answer) :
    Step → StateM Stage Answer
  | .setCaller caller => do
      Stage.setMemory fun memory => { memory with caller }
      return .done
  | .setTime now => do
      Stage.setMemory fun memory => { memory with now }
      return .time now
  | .advanceTime seconds => do
      Stage.setMemory fun memory => { memory with now := memory.now + seconds }
      return .time (← get).hosted.memory.now
  | .setRecord record => do
      Stage.setMemory fun memory => { memory with record }
      return .stored record
  | .setFaults faults => do
      modify fun stage => { stage with hosted := { stage.hosted with faults } }
      return .done
  | .hook steps reason => do
      modify fun stage => { stage with hook := some { steps, reason, played := false } }
      return .done
  | .unhook => do
      modify fun stage => { stage with hook := none }
      return .done
  | .dispatch action => do
      let hooked := (← get).hook.isSome
      let result ← ((dispatcher params play hooked).dispatch action).run
      return .dispatched action result (← get).record
  | .exitCode action => do
      let hooked := (← get).hook.isSome
      let result ← ((dispatcher params play hooked).dispatchExitCode action).run
      return .exited result (← get).record

/-! ## Playing a script -/

mutual

/-- How deep the hooks of a step are nested. -/
def Step.depth : Step → Nat
  | .hook steps _ => depthOfAll steps + 1
  | _ => 0

def depthOfAll : List Step → Nat
  | [] => 0
  | step :: rest => max step.depth (depthOfAll rest)

end

/-- Plays a step with hooks nested up to `depth`. A hook that is about to play its
steps was set by a step of the script, or by a step of a hook that is playing its
own; so the depth of the script is enough. -/
def playTo (params : Params) : (depth : Nat) → Step → StateM Stage Answer
  | 0 => playStep params fun _ => return .done
  | depth + 1 => playStep params (playTo params depth)

/-- Plays a script; the hook runs of each step are told apart from those of the
next. -/
def playAll (params : Params) (script : List Step) :
    StateM Stage (List (Answer × List HookRun)) :=
  script.mapM fun step => do
    modify fun stage => { stage with runs := [] }
    let answer ← playTo params (depthOfAll script) step
    return (answer, (← get).runs)

end Rehearsal

end LedgerGovernance
