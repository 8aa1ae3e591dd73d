import LedgerGovernance.Json
import LedgerGovernance.Record.Draft

/-! The parameters of a deployment. They are resolved once, from overrides of
the defaults, and hold within their ranges ever after. -/

namespace LedgerGovernance

structure Params where
  /-- The size in bytes that the record may have. -/
  recordCapacity : Nat
  maxMembers : Nat
  maxProposals : Nat
  /-- Seconds between a proposal's creation and the start of its vote. -/
  votingDelay : Nat
  /-- Seconds that a vote stays open. -/
  votingPeriod : Nat
  /-- Effective votes that a proposer needs. -/
  proposalThreshold : Nat
  /-- Percent of the total power that the votes for and the abstentions of a
  successful proposal reach. -/
  quorumPercentage : Nat
  timelockMinDelay : Nat
  /-- Seconds that a ready operation stays executable. -/
  timelockGracePeriod : Nat
  /-- Power of a member that registered itself. -/
  selfRegisterPower : Nat
  recordCapacity_pos : 1 ≤ recordCapacity := by decide
  maxMembers_pos : 1 ≤ maxMembers := by decide
  maxMembers_le : maxMembers ≤ maxU8 := by decide
  maxProposals_pos : 1 ≤ maxProposals := by decide
  maxProposals_le : maxProposals ≤ maxU8 := by decide
  votingDelay_le : votingDelay ≤ maxU32 := by decide
  votingPeriod_le : votingPeriod ≤ maxU32 := by decide
  proposalThreshold_le : proposalThreshold ≤ maxU64 := by decide
  quorumPercentage_le : quorumPercentage ≤ 100 := by decide
  timelockMinDelay_le : timelockMinDelay ≤ maxU32 := by decide
  timelockGracePeriod_le : timelockGracePeriod ≤ maxU32 := by decide
  selfRegisterPower_le : selfRegisterPower ≤ maxU64 := by decide

/-- Five minutes of delay, three days of voting, a timelock of two days and a
grace period of fourteen. -/
def Params.default : Params where
  recordCapacity := defaultCapacity
  maxMembers := 20
  maxProposals := 10
  votingDelay := 300
  votingPeriod := 259200
  proposalThreshold := 100000000
  quorumPercentage := 4
  timelockMinDelay := 172800
  timelockGracePeriod := 1209600
  selfRegisterPower := 0

/-- Values to put in place of defaults, not yet judged. -/
structure Overrides where
  recordCapacity : Option Number := none
  maxMembers : Option Number := none
  maxProposals : Option Number := none
  votingDelay : Option Number := none
  votingPeriod : Option Number := none
  proposalThreshold : Option Int := none
  quorumPercentage : Option Int := none
  timelockMinDelay : Option Number := none
  timelockGracePeriod : Option Number := none
  selfRegisterPower : Option Int := none

namespace Params

private def capacity (value : Number) : Except Failure { size : Nat // 1 ≤ size } :=
  match value.whole? with
  | some (.ofNat size) =>
      if positive : 1 ≤ size then .ok ⟨size, positive⟩
      else .error (.capacityParameter value)
  | _ => .error (.capacityParameter value)

private def slots (name : ParameterName) (value : Number) :
    Except Failure { count : Nat // 1 ≤ count ∧ count ≤ maxU8 } :=
  match value.upTo? maxU8 with
  | some count =>
      if bounds : 1 ≤ count ∧ count ≤ maxU8 then .ok ⟨count, bounds⟩
      else .error (.slotsParameter name value)
  | none => .error (.slotsParameter name value)

private def seconds (name : ParameterName) (value : Number) :
    Except Failure { count : Nat // count ≤ maxU32 } :=
  match value.upTo? maxU32 with
  | some count =>
      if bound : count ≤ maxU32 then .ok ⟨count, bound⟩
      else .error (.u32Parameter name value)
  | none => .error (.u32Parameter name value)

private def power (name : ParameterName) (value : Int) :
    Except Failure { amount : Nat // amount ≤ maxU64 } :=
  match value with
  | .ofNat amount =>
      if bound : amount ≤ maxU64 then .ok ⟨amount, bound⟩
      else .error (.u64Parameter name value)
  | .negSucc _ => .error (.u64Parameter name value)

private def percentage (value : Int) :
    Except Failure { percent : Nat // percent ≤ 100 } :=
  match value with
  | .ofNat percent =>
      if bound : percent ≤ 100 then .ok ⟨percent, bound⟩
      else .error (.quorumParameter value)
  | .negSucc _ => .error (.quorumParameter value)

/-! What a check lets through is what it was given. -/

private theorem capacity_natCast {size : Nat} (positive : 1 ≤ size) :
    capacity (size : Number) = .ok ⟨size, positive⟩ := by
  simp [capacity, Number.whole?_natCast, positive]

private theorem slots_natCast (name : ParameterName) {count : Nat}
    (bounds : 1 ≤ count ∧ count ≤ maxU8) :
    slots name (count : Number) = .ok ⟨count, bounds⟩ := by
  simp [slots, Number.upTo?_natCast bounds.2, bounds]

private theorem seconds_natCast (name : ParameterName) {count : Nat} (bound : count ≤ maxU32) :
    seconds name (count : Number) = .ok ⟨count, bound⟩ := by
  simp [seconds, Number.upTo?_natCast bound, bound]

private theorem power_natCast (name : ParameterName) {amount : Nat} (bound : amount ≤ maxU64) :
    power name (amount : Int) = .ok ⟨amount, bound⟩ :=
  dif_pos bound

private theorem percentage_natCast {percent : Nat} (bound : percent ≤ 100) :
    percentage (percent : Int) = .ok ⟨percent, bound⟩ :=
  dif_pos bound

/-- The parameters with the overrides put in, or what is wrong with the first
value that is out of range: the capacity, the two limits, the four spans of
time, the two powers and the percentage are judged in this order. -/
def resolve (overrides : Overrides) : Except Failure Params := do
  let ⟨recordCapacity, capacityPos⟩ ← capacity
    (overrides.recordCapacity.getD (default.recordCapacity : Number))
  let ⟨maxMembers, membersBounds⟩ ← slots .maxMembers
    (overrides.maxMembers.getD (default.maxMembers : Number))
  let ⟨maxProposals, proposalsBounds⟩ ← slots .maxProposals
    (overrides.maxProposals.getD (default.maxProposals : Number))
  let ⟨votingDelay, delayBound⟩ ← seconds .votingDelay
    (overrides.votingDelay.getD (default.votingDelay : Number))
  let ⟨votingPeriod, periodBound⟩ ← seconds .votingPeriod
    (overrides.votingPeriod.getD (default.votingPeriod : Number))
  let ⟨timelockMinDelay, minDelayBound⟩ ← seconds .timelockMinDelay
    (overrides.timelockMinDelay.getD (default.timelockMinDelay : Number))
  let ⟨timelockGracePeriod, graceBound⟩ ← seconds .timelockGracePeriod
    (overrides.timelockGracePeriod.getD (default.timelockGracePeriod : Number))
  let ⟨proposalThreshold, thresholdBound⟩ ← power .proposalThreshold
    (overrides.proposalThreshold.getD default.proposalThreshold)
  let ⟨selfRegisterPower, registerBound⟩ ← power .selfRegisterPower
    (overrides.selfRegisterPower.getD default.selfRegisterPower)
  let ⟨quorumPercentage, percentBound⟩ ← percentage
    (overrides.quorumPercentage.getD default.quorumPercentage)
  return {
    recordCapacity, maxMembers, maxProposals, votingDelay, votingPeriod,
    proposalThreshold, quorumPercentage, timelockMinDelay, timelockGracePeriod,
    selfRegisterPower
    recordCapacity_pos := capacityPos
    maxMembers_pos := membersBounds.1
    maxMembers_le := membersBounds.2
    maxProposals_pos := proposalsBounds.1
    maxProposals_le := proposalsBounds.2
    votingDelay_le := delayBound
    votingPeriod_le := periodBound
    proposalThreshold_le := thresholdBound
    quorumPercentage_le := percentBound
    timelockMinDelay_le := minDelayBound
    timelockGracePeriod_le := graceBound
    selfRegisterPower_le := registerBound }

/-- The overrides that ask for no other parameters than these. -/
def overrides (params : Params) : Overrides where
  recordCapacity := some params.recordCapacity
  maxMembers := some params.maxMembers
  maxProposals := some params.maxProposals
  votingDelay := some params.votingDelay
  votingPeriod := some params.votingPeriod
  proposalThreshold := some params.proposalThreshold
  quorumPercentage := some params.quorumPercentage
  timelockMinDelay := some params.timelockMinDelay
  timelockGracePeriod := some params.timelockGracePeriod
  selfRegisterPower := some params.selfRegisterPower

/-- Parameters pass the checks under which they were resolved. -/
theorem resolve_overrides (params : Params) : resolve params.overrides = .ok params := by
  simp only [resolve, overrides, Option.getD_some, capacity_natCast params.recordCapacity_pos,
    slots_natCast _ ⟨params.maxMembers_pos, params.maxMembers_le⟩,
    slots_natCast _ ⟨params.maxProposals_pos, params.maxProposals_le⟩,
    seconds_natCast _ params.votingDelay_le, seconds_natCast _ params.votingPeriod_le,
    seconds_natCast _ params.timelockMinDelay_le, seconds_natCast _ params.timelockGracePeriod_le,
    power_natCast _ params.proposalThreshold_le, power_natCast _ params.selfRegisterPower_le,
    percentage_natCast params.quorumPercentage_le]
  rfl

/-- So the defaults stand where nothing else is asked for. -/
theorem resolve_empty : resolve {} = .ok default :=
  resolve_overrides default

def json (params : Params) : Json :=
  .object [
    ("recordCapacity", params.recordCapacity),
    ("maxMembers", params.maxMembers),
    ("maxProposals", params.maxProposals),
    ("votingDelay", params.votingDelay),
    ("votingPeriod", params.votingPeriod),
    ("proposalThreshold", Json.amount params.proposalThreshold),
    ("quorumPercentage", Json.amount params.quorumPercentage),
    ("timelockMinDelay", params.timelockMinDelay),
    ("timelockGracePeriod", params.timelockGracePeriod),
    ("selfRegisterPower", Json.amount params.selfRegisterPower)]

end Params

end LedgerGovernance
