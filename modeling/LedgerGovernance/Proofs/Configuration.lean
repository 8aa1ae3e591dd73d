import LedgerGovernance.Proofs.Schema
import LedgerGovernance.Settings

/-! From the environment to the parameters. The ranges stand twice: a schema judges the texts
of the variables, and the parameters judge the numbers that they are resolved from. What the
schema lets through is resolved without a refusal, to the very numbers that the texts denote. -/

namespace LedgerGovernance

namespace Settings

variable {α β : Type} {environment : Environment} {name : String} {fallback value : Nat}
  {settings : Settings}

/-! ## Single variables -/

/-- What is read from a variable: what its text denotes, and the fallback where there is no
text. -/
def Reads (environment : Environment) (name : String) (denotes : String → Nat → Prop)
    (fallback value : Nat) : Prop :=
  match lookup? environment name with
  | some text => denotes text value
  | none => value = fallback

/-- A text that is converted to a whole number. -/
def Numeral (text : String) (value : Nat) : Prop :=
  Number.ofText text.toList = (value : Number)

/-- At most twenty decimal digits. -/
def Digits (text : String) (value : Nat) : Prop :=
  Text.isDecimal 20 text.toList = true ∧ Text.digitsValue text.toList = value

/-- Whatever holds of the fallback and of what is accepted holds of what is read. -/
theorem reads_of_withDefault {denotes : String → Nat → Prop} {range : Nat → Prop}
    {judge : String → Judged Nat} (within : range fallback)
    (accepts : ∀ text, judge text = .accepted value → denotes text value ∧ range value)
    (found : withDefault environment name fallback judge = .ok value) :
    Reads environment name denotes fallback value ∧ range value := by
  cases present : lookup? environment name with
  | some text =>
      rw [withDefault, present] at found
      rw [Reads, present]
      exact accepts text (Judged.within_eq_ok.mp found)
  | none =>
      rw [withDefault, present] at found
      rw [Reads, present]
      rcases Except.ok.inj found with rfl
      exact ⟨rfl, within⟩

theorem number_reads {least : Nat} {greatest : Option Nat}
    (within : least ≤ fallback ∧ ∀ bound ∈ greatest, fallback ≤ bound)
    (found : number environment name fallback least greatest = .ok value) :
    Reads environment name Numeral fallback value ∧
      least ≤ value ∧ ∀ bound ∈ greatest, value ≤ bound :=
  @reads_of_withDefault _ _ _ _ Numeral
    (fun value => least ≤ value ∧ ∀ bound ∈ greatest, value ≤ bound) _ within
    (fun _ accepted => Schema.number_whole_eq_accepted.mp accepted) found

theorem amount_reads (within : fallback ≤ maxU64)
    (found : amount environment name fallback = .ok value) :
    Reads environment name Digits fallback value ∧ value ≤ maxU64 := by
  apply @reads_of_withDefault _ _ _ _ Digits (· ≤ maxU64) _ within _ found
  intro text accepted
  rcases Judged.require_eq_accepted.mp accepted with ⟨accepted, fits⟩
  exact ⟨Schema.digits_eq_accepted.mp accepted, of_decide_eq_true fits⟩

/-! ## All variables -/

theorem Checked.and_eq_ok {making : Checked (α → β)} {checked : Checked α} {result : β} :
    making.and checked = .ok result ↔
      ∃ convert value, making = .ok convert ∧ checked = .ok value ∧ convert value = result := by
  cases making <;> cases checked <;> simp [Checked.and]

/-- The settings, variable by variable. -/
structure Checks (environment : Environment) (settings : Settings) : Prop where
  webPort : number environment "PORT" 3000 1 (some 65535) = .ok settings.webPort
  host : withDefault environment "HOST" "0.0.0.0" .accepted = .ok settings.host
  verbosity : named environment "LOG_LEVEL" .info Verbosity.all Verbosity.name =
    .ok settings.verbosity
  purpose : named environment "NODE_ENV" .development Purpose.all Purpose.name =
    .ok settings.purpose
  adminAccount : account environment "ADMIN_ACCOUNT" = .ok settings.adminAccount
  recordCapacity : number environment "RECORD_CAPACITY" Params.default.recordCapacity 1 none =
    .ok settings.recordCapacity
  maxMembers : number environment "MAX_MEMBERS" Params.default.maxMembers 1 (some maxU8) =
    .ok settings.maxMembers
  maxProposals : number environment "MAX_PROPOSALS" Params.default.maxProposals 1 (some maxU8) =
    .ok settings.maxProposals
  votingDelay : number environment "VOTING_DELAY" Params.default.votingDelay 0 (some maxU32) =
    .ok settings.votingDelay
  votingPeriod : number environment "VOTING_PERIOD" Params.default.votingPeriod 0
    (some maxU32) = .ok settings.votingPeriod
  proposalThreshold : amount environment "PROPOSAL_THRESHOLD" Params.default.proposalThreshold =
    .ok settings.proposalThreshold
  quorumPercentage : number environment "QUORUM_PERCENTAGE" Params.default.quorumPercentage 0
    (some 100) = .ok settings.quorumPercentage
  timelockMinDelay : number environment "TIMELOCK_MIN_DELAY" Params.default.timelockMinDelay 0
    (some maxU32) = .ok settings.timelockMinDelay
  timelockGracePeriod : number environment "TIMELOCK_GRACE_PERIOD"
    Params.default.timelockGracePeriod 0 (some maxU32) = .ok settings.timelockGracePeriod
  selfRegisterPower : amount environment "SELF_REGISTER_POWER" Params.default.selfRegisterPower =
    .ok settings.selfRegisterPower

theorem checks_of_ofEnvironment (accepted : ofEnvironment environment = .ok settings) :
    Checks environment settings := by
  simp only [ofEnvironment, Checked.of, Checked.and_eq_ok, Except.ok.injEq] at accepted
  rcases accepted with
    ⟨_, _, ⟨_, _, ⟨_, _, ⟨_, _, ⟨_, _, ⟨_, _, ⟨_, _, ⟨_, _, ⟨_, _, ⟨_, _, ⟨_, _, ⟨_, _, ⟨_, _,
      ⟨_, _, ⟨_, _, rfl, webPort, rfl⟩, host, rfl⟩, verbosity, rfl⟩, purpose, rfl⟩,
      adminAccount, rfl⟩, recordCapacity, rfl⟩, maxMembers, rfl⟩, maxProposals, rfl⟩,
      votingDelay, rfl⟩, votingPeriod, rfl⟩, proposalThreshold, rfl⟩, quorumPercentage, rfl⟩,
      timelockMinDelay, rfl⟩, timelockGracePeriod, rfl⟩, selfRegisterPower, rfl⟩
  exact {
    webPort, host, verbosity, purpose, adminAccount, recordCapacity, maxMembers, maxProposals,
    votingDelay, votingPeriod, proposalThreshold, quorumPercentage, timelockMinDelay,
    timelockGracePeriod, selfRegisterPower }

end Settings

namespace Params

/-- Each parameter is read from its variable, or is the default where that is absent. -/
structure ReadFrom (environment : Settings.Environment) (params : Params) : Prop where
  recordCapacity : Settings.Reads environment "RECORD_CAPACITY" Settings.Numeral
    default.recordCapacity params.recordCapacity
  maxMembers : Settings.Reads environment "MAX_MEMBERS" Settings.Numeral
    default.maxMembers params.maxMembers
  maxProposals : Settings.Reads environment "MAX_PROPOSALS" Settings.Numeral
    default.maxProposals params.maxProposals
  votingDelay : Settings.Reads environment "VOTING_DELAY" Settings.Numeral
    default.votingDelay params.votingDelay
  votingPeriod : Settings.Reads environment "VOTING_PERIOD" Settings.Numeral
    default.votingPeriod params.votingPeriod
  proposalThreshold : Settings.Reads environment "PROPOSAL_THRESHOLD" Settings.Digits
    default.proposalThreshold params.proposalThreshold
  quorumPercentage : Settings.Reads environment "QUORUM_PERCENTAGE" Settings.Numeral
    default.quorumPercentage params.quorumPercentage
  timelockMinDelay : Settings.Reads environment "TIMELOCK_MIN_DELAY" Settings.Numeral
    default.timelockMinDelay params.timelockMinDelay
  timelockGracePeriod : Settings.Reads environment "TIMELOCK_GRACE_PERIOD" Settings.Numeral
    default.timelockGracePeriod params.timelockGracePeriod
  selfRegisterPower : Settings.Reads environment "SELF_REGISTER_POWER" Settings.Digits
    default.selfRegisterPower params.selfRegisterPower

/-- The ranges that the members, the votes and the timelock are built on. -/
structure InRange (params : Params) : Prop where
  capacity : 1 ≤ params.recordCapacity
  slots : ∀ count ∈ [params.maxMembers, params.maxProposals], 1 ≤ count ∧ count ≤ 255
  seconds : ∀ span ∈ [params.votingDelay, params.votingPeriod, params.timelockMinDelay,
    params.timelockGracePeriod], span ≤ 4294967295
  powers : ∀ power ∈ [params.proposalThreshold, params.selfRegisterPower],
    power ≤ 18446744073709551615
  percentage : params.quorumPercentage ≤ 100

theorem inRange (params : Params) : params.InRange where
  capacity := params.recordCapacity_pos
  slots := by
    simp only [List.forall_mem_cons]
    exact ⟨⟨params.maxMembers_pos, params.maxMembers_le⟩,
      ⟨params.maxProposals_pos, params.maxProposals_le⟩, nofun⟩
  seconds := by
    simp only [List.forall_mem_cons]
    exact ⟨params.votingDelay_le, params.votingPeriod_le, params.timelockMinDelay_le,
      params.timelockGracePeriod_le, nofun⟩
  powers := by
    simp only [List.forall_mem_cons]
    exact ⟨params.proposalThreshold_le, params.selfRegisterPower_le, nofun⟩
  percentage := params.quorumPercentage_le

end Params

namespace Settings

variable {environment : Environment} {settings : Settings}

/-- The parameters that the settings ask for. Each schema keeps to the range that the
parameter must have. -/
def Checks.params (checks : Checks environment settings) : Params where
  recordCapacity := settings.recordCapacity
  maxMembers := settings.maxMembers
  maxProposals := settings.maxProposals
  votingDelay := settings.votingDelay
  votingPeriod := settings.votingPeriod
  proposalThreshold := settings.proposalThreshold
  quorumPercentage := settings.quorumPercentage
  timelockMinDelay := settings.timelockMinDelay
  timelockGracePeriod := settings.timelockGracePeriod
  selfRegisterPower := settings.selfRegisterPower
  recordCapacity_pos := (number_reads (by decide) checks.recordCapacity).2.1
  maxMembers_pos := (number_reads (by decide) checks.maxMembers).2.1
  maxMembers_le := (number_reads (by decide) checks.maxMembers).2.2 _ rfl
  maxProposals_pos := (number_reads (by decide) checks.maxProposals).2.1
  maxProposals_le := (number_reads (by decide) checks.maxProposals).2.2 _ rfl
  votingDelay_le := (number_reads (by decide) checks.votingDelay).2.2 _ rfl
  votingPeriod_le := (number_reads (by decide) checks.votingPeriod).2.2 _ rfl
  proposalThreshold_le := (amount_reads (by decide) checks.proposalThreshold).2
  quorumPercentage_le := (number_reads (by decide) checks.quorumPercentage).2.2 _ rfl
  timelockMinDelay_le := (number_reads (by decide) checks.timelockMinDelay).2.2 _ rfl
  timelockGracePeriod_le := (number_reads (by decide) checks.timelockGracePeriod).2.2 _ rfl
  selfRegisterPower_le := (amount_reads (by decide) checks.selfRegisterPower).2

theorem Checks.resolved (checks : Checks environment settings) :
    settings.params = .ok checks.params :=
  Params.resolve_overrides checks.params

theorem Checks.readFrom (checks : Checks environment settings) :
    checks.params.ReadFrom environment where
  recordCapacity := (number_reads (by decide) checks.recordCapacity).1
  maxMembers := (number_reads (by decide) checks.maxMembers).1
  maxProposals := (number_reads (by decide) checks.maxProposals).1
  votingDelay := (number_reads (by decide) checks.votingDelay).1
  votingPeriod := (number_reads (by decide) checks.votingPeriod).1
  proposalThreshold := (amount_reads (by decide) checks.proposalThreshold).1
  quorumPercentage := (number_reads (by decide) checks.quorumPercentage).1
  timelockMinDelay := (number_reads (by decide) checks.timelockMinDelay).1
  timelockGracePeriod := (number_reads (by decide) checks.timelockGracePeriod).1
  selfRegisterPower := (amount_reads (by decide) checks.selfRegisterPower).1

/-- An environment that is accepted gives parameters: they are resolved without a refusal, they
are the numbers that the variables stand for, and they are in the ranges that the rest relies
on. -/
theorem accepted_resolves (accepted : ofEnvironment environment = .ok settings) :
    ∃ params, settings.params = .ok params ∧ params.ReadFrom environment ∧ params.InRange :=
  have checks := checks_of_ofEnvironment accepted
  ⟨checks.params, checks.resolved, checks.readFrom, checks.params.inRange⟩

/-- Blanks, an exponent, other bases, no digits at all, a sign in front of zero, leading zeros,
and a number beyond the exact ones. -/
theorem odd_environment_resolves :
    let environment := [("RECORD_CAPACITY", "18446744073709551617"), ("MAX_MEMBERS", " 25.5e1\n"),
      ("MAX_PROPOSALS", "0b1"), ("VOTING_DELAY", ""), ("VOTING_PERIOD", "-0"),
      ("PROPOSAL_THRESHOLD", "00000000000000000007"), ("QUORUM_PERCENTAGE", "0x64"),
      ("TIMELOCK_MIN_DELAY", "\u00a0+4294967295")]
    let settings : Settings := {
      webPort := 3000, host := "0.0.0.0", verbosity := .info, purpose := .development,
      adminAccount := none, recordCapacity := 18446744073709551616, maxMembers := 255,
      maxProposals := 1, votingDelay := 0, votingPeriod := 0, proposalThreshold := 7,
      quorumPercentage := 100, timelockMinDelay := 4294967295, timelockGracePeriod := 1209600,
      selfRegisterPower := 0 }
    ofEnvironment environment = .ok settings ∧
      ∃ params, settings.params = .ok params ∧ params.ReadFrom environment ∧ params.InRange := by
  intro environment settings
  have shown : (ofEnvironment environment).toOption = some settings := by decide +kernel
  have accepted : ofEnvironment environment = .ok settings := by
    cases found : ofEnvironment environment with
    | ok other =>
        rw [found] at shown
        exact congrArg _ (Option.some.inj shown)
    | error issues =>
        rw [found] at shown
        cases shown
  exact ⟨accepted, accepted_resolves accepted⟩

end Settings

end LedgerGovernance
