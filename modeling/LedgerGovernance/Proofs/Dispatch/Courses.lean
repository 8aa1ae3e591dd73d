import LedgerGovernance.Dispatch
import LedgerGovernance.Proofs.Calls
import LedgerGovernance.Proofs.Number

/-! How a dispatch without a hook goes, told by the calls that it makes on its host and by
the host's answers. The host may answer anything: what it says to one call need not agree
with what it says to another, so a course is one of seven, according to the first answer
that is not good enough. -/

namespace LedgerGovernance

/-- A call on a host, with the answer to it. -/
inductive HostCall where
  | identified (caller : Option Account)
  | read (record : Option Text)
  | told (time : Number)
  | wrote (record : Text) (taken : Bool)
deriving DecidableEq, Repr

namespace Host

variable {σ : Type}

/-- The host answers a call in one state, and the answer leaves it in another. -/
def Answers (host : Host σ) (state next : σ) : HostCall → Prop
  | .identified caller => host.callerIdentity.run state = (caller, next)
  | .read record => host.readRecord.run state = (record, next)
  | .told time => host.currentTime.run state = (time, next)
  | .wrote record taken => (host.writeRecord record).run state = (taken, next)

/-- Calls one after the other, each with the answer that the host gives to it. -/
inductive Path (host : Host σ) : σ → List HostCall → σ → Prop
  | nil {state : σ} : Path host state [] state
  | cons {state next last : σ} {call : HostCall} {calls : List HostCall}
      (answered : host.Answers state next call) (later : Path host next calls last) :
      Path host state (call :: calls) last

variable {host : Host σ} {state last : σ} {call : HostCall} {calls : List HostCall}

theorem path_cons : host.Path state (call :: calls) last ↔
    ∃ next, host.Answers state next call ∧ host.Path next calls last where
  mp path := by
    cases path with
    | cons answered later => exact ⟨_, answered, later⟩
  mpr := by
    rintro ⟨next, answered, later⟩
    exact .cons answered later

theorem path_nil : host.Path state [] last ↔ state = last where
  mp path := by
    cases path
    rfl
  mpr same := same ▸ .nil

theorem path_append {later : List HostCall} : host.Path state (calls ++ later) last ↔
    ∃ next, host.Path state calls next ∧ host.Path next later last := by
  induction calls generalizing state with
  | nil => simp [path_nil]
  | cons call calls induction =>
      simp only [List.cons_append, path_cons, induction]
      constructor
      · rintro ⟨middle, answered, next, path, rest⟩
        exact ⟨next, ⟨middle, answered, path⟩, rest⟩
      · rintro ⟨next, ⟨middle, answered, path⟩, rest⟩
        exact ⟨middle, answered, next, path, rest⟩

end Host

/-! ## The seven courses -/

/-- What is asked of a host before an action is applied, and answered well. -/
def HostCall.asked (caller : Account) (record : Text) (time : Number) : List HostCall :=
  [.identified (some caller), .identified (some caller), .read (some record), .told time]

/-- The calls that an action makes, with their answers, and what the action comes to. -/
inductive Course (params : Params) (action : Action) :
    List HostCall → Outcome Receipt → Prop
  | unknown : Course params action [.identified none] (Outcome.refuse .callerUnknown)
  | changed {first : Account} {second : Option Account} (differs : second ≠ some first) :
      Course params action [.identified (some first), .identified second]
        (Outcome.refuse .callerChanged)
  | unreadable {caller : Account} :
      Course params action
        [.identified (some caller), .identified (some caller), .read none]
        (Outcome.refuse .recordUnreadable)
  | untimed {caller : Account} {record : Text} {time : Number}
      (misfit : time.upTo? maxU32 = none) :
      Course params action (HostCall.asked caller record time)
        (Outcome.refuse (.invalidTime time))
  | failed {caller : Account} {record : Text} {now : Nat} {fault : Fault}
      (fits : now ≤ maxU32)
      (fails : action.apply params record caller (now : Number) = .error fault) :
      Course params action (HostCall.asked caller record now) (.error fault)
  | unwritten {caller : Account} {record : Text} {now : Nat} {receipt : Receipt}
      (fits : now ≤ maxU32)
      (applied : action.apply params record caller (now : Number) = .ok receipt) :
      Course params action
        (HostCall.asked caller record now ++ [.wrote receipt.record false])
        (Outcome.refuse .recordRefused)
  | written {caller : Account} {record : Text} {now : Nat} {receipt : Receipt}
      (fits : now ≤ maxU32)
      (applied : action.apply params record caller (now : Number) = .ok receipt) :
      Course params action
        (HostCall.asked caller record now ++ [.wrote receipt.record true]) (.ok receipt)

variable {σ : Type}

/-- On every host some course leads somewhere. -/
theorem exists_course (params : Params) (action : Action) (host : Host σ) (state : σ) :
    ∃ calls outcome last, Course params action calls outcome ∧ host.Path state calls last := by
  rcases asked : host.callerIdentity.run state with ⟨_ | caller, once⟩
  · exact ⟨_, _, once, .unknown, .cons asked .nil⟩
  rcases again : host.callerIdentity.run once with ⟨second, twice⟩
  by_cases same : second = some caller
  case neg => exact ⟨_, _, twice, .changed same, .cons asked (.cons again .nil)⟩
  rw [same] at again
  rcases reading : host.readRecord.run twice with ⟨_ | record, read⟩
  · exact ⟨_, _, read, .unreadable, .cons asked (.cons again (.cons reading .nil))⟩
  rcases timing : host.currentTime.run read with ⟨time, told⟩
  have before : ∀ {calls last}, host.Path told calls last →
      host.Path state (HostCall.asked caller record time ++ calls) last :=
    fun path => .cons asked (.cons again (.cons reading (.cons timing path)))
  cases fitting : time.upTo? maxU32 with
  | none => exact ⟨_, _, told, .untimed fitting, before .nil⟩
  | some now =>
      rcases Number.upTo?_eq_some.mp fitting with ⟨rfl, fits⟩
      cases applied : action.apply params record caller (now : Number) with
      | error fault => exact ⟨_, _, told, .failed fits applied, before .nil⟩
      | ok receipt =>
          rcases writing : (host.writeRecord receipt.record).run told with ⟨taken, last⟩
          have answered : host.Answers told last (.wrote receipt.record taken) := writing
          have path := before (.cons answered .nil)
          cases taken with
          | false => exact ⟨_, _, last, .unwritten fits applied, path⟩
          | true => exact ⟨_, _, last, .written fits applied, path⟩

/-! ## Dispatchers take the course -/

namespace Dispatcher

variable (dispatcher : Dispatcher σ) {action : Action}

/-- No hook has a say in the action: there is none, or the action is not an execution. -/
def Plain (action : Action) : Prop :=
  dispatcher.onExecute = none ∨ ∀ proposalId, action ≠ .execute proposalId

variable {dispatcher}

theorem perform_of_plain (plain : dispatcher.Plain action) (record : Text) (caller : Account)
    (now : Nat) :
    dispatcher.perform action record caller now =
      Call.ofOutcome (action.apply dispatcher.params record caller (now : Number)) >>=
        dispatcher.commit := by
  unfold perform
  split
  · next hooked =>
      rcases plain with unhooked | other
      · exact absurd (hooked.symm.trans unhooked) nofun
      · exact absurd rfl (other _)
  · rfl

/-- What a dispatch asks of its host before the action is performed. -/
def survey : Call σ (Account × Text × Nat) := do
  let caller ← dispatcher.verifyCaller
  let record ← dispatcher.readRecord
  let now ← dispatcher.readTime
  return (caller, record, now)

theorem run_eq (action : Action) :
    dispatcher.run action = (do
      let (caller, record, now) ← dispatcher.survey
      dispatcher.perform action record caller now) := by
  simp only [run, survey, bind_assoc, pure_bind]

variable {state last : σ}

theorem run_of_survey_error {interruption : Interruption}
    (ended : dispatcher.survey.on state = (.error interruption, last)) :
    (dispatcher.run action).on state = (.error interruption, last) := by
  rw [run_eq, Call.on_bind, ended]

theorem run_of_survey {caller : Account} {record : Text} {now : Nat}
    (ended : dispatcher.survey.on state = (.ok (caller, record, now), last)) :
    (dispatcher.run action).on state =
      (dispatcher.perform action record caller now).on last := by
  rw [run_eq, Call.on_bind, ended]

/-- The survey, one answer after the other. -/
theorem survey_on (state : σ) :
    dispatcher.survey.on state =
      let refuse failure := Except.error (.fault (.refused failure))
      match dispatcher.host.callerIdentity.run state with
      | (none, once) => (refuse .callerUnknown, once)
      | (some caller, once) =>
          match dispatcher.host.callerIdentity.run once with
          | (second, twice) =>
              if second = some caller then
                match dispatcher.host.readRecord.run twice with
                | (none, read) => (refuse .recordUnreadable, read)
                | (some record, read) =>
                    match dispatcher.host.currentTime.run read with
                    | (time, told) =>
                        match time.upTo? maxU32 with
                        | none => (refuse (.invalidTime time), told)
                        | some now => (.ok (caller, record, now), told)
              else (refuse .callerChanged, twice) := by
  simp only [survey, verifyCaller, readRecord, readTime, bind_assoc, Call.on_lift_bind]
  rcases dispatcher.host.callerIdentity.run state with ⟨_ | caller, once⟩
  · rfl
  simp only [bind_assoc, Call.on_lift_bind]
  rcases dispatcher.host.callerIdentity.run once with ⟨second, twice⟩
  by_cases same : second = some caller
  case neg =>
    simp only [if_neg same]
    rfl
  simp only [if_pos same, pure_bind, Call.on_lift_bind]
  rcases dispatcher.host.readRecord.run twice with ⟨_ | record, read⟩
  · rfl
  simp only [pure_bind, Call.on_lift_bind]
  rcases dispatcher.host.currentTime.run read with ⟨time, told⟩
  dsimp only
  cases time.upTo? maxU32 <;> rfl

/-- A dispatcher that has been answered well goes on with the action. -/
theorem survey_of_asked {caller : Account} {record : Text} {now : Nat} (fits : now ≤ maxU32)
    (path : dispatcher.host.Path state (HostCall.asked caller record now) last) :
    dispatcher.survey.on state = (.ok (caller, record, now), last) := by
  simp only [HostCall.asked, Host.path_cons, Host.path_nil, Host.Answers] at path
  rcases path with ⟨once, asked, twice, again, read, reading, told, timing, rfl⟩
  have fitting : (now : Number).upTo? maxU32 = some now := Number.upTo?_eq_some.mpr ⟨rfl, fits⟩
  simp [survey_on, asked, again, reading, timing, fitting]

theorem perform_on {caller : Account} {record : Text} {now : Nat} {receipt : Receipt}
    {taken : Bool} (plain : dispatcher.Plain action)
    (applied : action.apply dispatcher.params record caller (now : Number) = .ok receipt)
    (answered : dispatcher.host.Answers state last (.wrote receipt.record taken)) :
    (dispatcher.perform action record caller now).on state =
      (if taken then .ok receipt else .error (.fault (.refused .recordRefused)), last) := by
  rw [Host.Answers] at answered
  rw [perform_of_plain plain, Call.on_ofOutcome_ok_bind applied, commit, Call.on_lift_bind,
    answered]
  cases taken <;> rfl

/-- A dispatcher whose host answers as a course says takes that course. -/
theorem run_of_course (plain : dispatcher.Plain action) {calls : List HostCall}
    {outcome : Outcome Receipt} (course : Course dispatcher.params action calls outcome)
    (path : dispatcher.host.Path state calls last) :
    (dispatcher.run action).on state = (outcome.mapError .fault, last) := by
  cases course with
  | unknown =>
      simp only [Host.path_cons, Host.path_nil, Host.Answers] at path
      rcases path with ⟨once, asked, rfl⟩
      exact run_of_survey_error (by rw [survey_on, asked])
  | changed differs =>
      simp only [Host.path_cons, Host.path_nil, Host.Answers] at path
      rcases path with ⟨once, asked, twice, again, rfl⟩
      exact run_of_survey_error (by simp [survey_on, asked, again, differs])
  | unreadable =>
      simp only [Host.path_cons, Host.path_nil, Host.Answers] at path
      rcases path with ⟨once, asked, twice, again, read, reading, rfl⟩
      exact run_of_survey_error (by simp [survey_on, asked, again, reading])
  | untimed misfit =>
      simp only [HostCall.asked, Host.path_cons, Host.path_nil, Host.Answers] at path
      rcases path with ⟨once, asked, twice, again, read, reading, told, timing, rfl⟩
      exact run_of_survey_error (by simp [survey_on, asked, again, reading, timing, misfit])
  | failed fits fails =>
      rw [run_of_survey (survey_of_asked fits path), perform_of_plain plain,
        Call.on_ofOutcome_error_bind fails]
      rfl
  | unwritten fits applied | written fits applied =>
      rcases Host.path_append.mp path with ⟨told, before, writing⟩
      rcases Host.path_cons.mp writing with ⟨next, answered, nothing⟩
      cases Host.path_nil.mp nothing
      rw [run_of_survey (survey_of_asked fits before), perform_on plain applied answered]
      rfl

/-! ## Logging -/

variable (dispatcher) in
/-- The host once it has been logged what an action came to. -/
def logged (action : Action) (outcome : Outcome Receipt) (state : σ) : σ :=
  match outcome with
  | .ok _ => ((dispatcher.log (.actionSucceeded action)).run state).2
  | .error (.refused failure) => ((dispatcher.log (.actionRefused action failure)).run state).2
  | .error (.illTyped _) => state

theorem dispatch_of_run {outcome : Outcome Receipt}
    (ran : (dispatcher.run action).on state = (outcome.mapError .fault, last)) :
    (dispatcher.dispatch action).on state =
      (outcome.mapError .fault, dispatcher.logged action outcome last) := by
  rw [Call.on] at ran
  rw [Call.on, dispatch, ExceptT.run_mk, StateT.run_bind, ran]
  rcases outcome with (failure | argument) | receipt <;> rfl

/-- The exit code of an outcome; an action with an ill-typed argument has none. -/
def exitCode (outcome : Outcome Receipt) : Except Interruption Int :=
  match outcome with
  | .ok _ => .ok successExitCode
  | .error (.refused failure) => .ok failure.code.exitCode
  | .error (.illTyped argument) => .error (.fault (.illTyped argument))

theorem dispatchExitCode_of_run {outcome : Outcome Receipt}
    (ran : (dispatcher.run action).on state = (outcome.mapError .fault, last)) :
    (dispatcher.dispatchExitCode action).on state =
      (exitCode outcome, dispatcher.logged action outcome last) := by
  have dispatched := dispatch_of_run ran
  rw [Call.on] at dispatched
  rw [Call.on, dispatchExitCode, ExceptT.run_mk, StateT.run_bind, dispatched]
  rcases outcome with (failure | argument) | receipt <;> rfl

end Dispatcher

end LedgerGovernance
