import LedgerGovernance.Proofs.Ledger.Seats
import LedgerGovernance.Proofs.Runs

/-! Where powers and roles come from. Authority is read from the text of the record at
every action, so nothing but an admin's action may write what gives it. Seen from any
account, a move leaves the standing that the account has, or an admin changes one part of
it, or the account registers itself and gets no role. -/

namespace LedgerGovernance

/-- The account whose power or roles an action of an admin is about. -/
def Action.appointee? : Action → Option Account
  | setVotingPower account _ | grantRole account _ | revokeRole account _ => some account
  | _ => none

/-! ## The standing of one account -/

namespace Members

/-- What a move may make of the standing of an account, from none at all for an account
that is no member. A member stays one. -/
inductive Regraded (params : Params) (record : Text) (move : Move) (account : Account) :
    Option Standing → Option Standing → Prop
  | kept (standing : Option Standing) :
      Regraded params record move account standing standing
  | registered (done : ∃ receipt, move.outcome params record = .ok receipt)
      (action_eq : move.action = .selfRegister) (own : move.caller = account) :
      Regraded params record move account none
        (some { votingPower := params.selfRegisterPower, roles := 0 })
  | empowered {standing : Option Standing} {power : Nat}
      (done : ∃ receipt, move.outcome params record = .ok receipt)
      (action_eq : move.action = .setVotingPower account power)
      (admin : hasRole record move.caller Role.admin.bit = true) :
      Regraded params record move account standing
        (some { votingPower := power, roles := (standing.map Standing.roles).getD 0 })
  | appointed {standing : Option Standing} {role : Number} {roles : Nat}
      (done : ∃ receipt, move.outcome params record = .ok receipt)
      (action_eq : move.action = .grantRole account role ∨
        move.action = .revokeRole account role)
      (admin : hasRole record move.caller Role.admin.bit = true) :
      Regraded params record move account standing
        (some { votingPower := (standing.map Standing.votingPower).getD 0, roles })

/-- Without an action of an admin no roles change, not even from having no standing. -/
theorem Regraded.roles_eq {params : Params} {record : Text} {move : Move} {account : Account}
    {before after : Option Standing}
    (regraded : Regraded params record move account before after)
    (unappointed : (∃ receipt, move.outcome params record = .ok receipt) →
      move.action.appointee? = none) :
    (after.map Standing.roles).getD 0 = (before.map Standing.roles).getD 0 := by
  cases regraded with
  | kept | registered => rfl
  | empowered done action_eq =>
      have appointee := unappointed done
      rw [action_eq] at appointee
      cases appointee
  | appointed done action_eq =>
      have appointee := unappointed done
      rcases action_eq with action_eq | action_eq <;> rw [action_eq] at appointee <;>
        cases appointee

end Members

namespace Represents

variable {params : Params} {record : Text} {ledger after : Ledger} {move : Move}

/-- What an action enters for an account is within what it may make of its standing. -/
theorem regraded_of_seated (holds : Represents record ledger)
    (done : ∃ receipt, move.outcome params record = .ok receipt)
    {account : Account} {power : Int} {mask : Number} {seat : Seat}
    (appoints : ledger.Appoints params move.caller move.action account power mask)
    (seated : ledger.Seated params account power mask seat after) :
    Members.Regraded params record move account (ledger.standing? account)
      (some seat.standing) := by
  have powerEq := (Amount.u64?_eq_some.mp seated.power_eq).1
  have rolesEq := (Number.upTo?_eq_some.mp seated.roles_eq).1
  have granted : ledger.hasRole move.caller Role.admin.bit = true →
      Members.hasRole record move.caller Role.admin.bit = true :=
    (holds.hasRole_eq move.caller _).trans
  generalize actionEq : move.action = action at appoints
  generalize callerEq : move.caller = caller at appoints granted
  cases appoints with
  | registered newcomer =>
      have standing : seat.standing =
          { votingPower := params.selfRegisterPower, roles := 0 } := by
        rw [Seat.standing, ← Int.ofNat.inj powerEq, ← Number.natCast_inj.mp rolesEq]
      rw [newcomer, standing]
      exact .registered done actionEq callerEq
  | empowered admin =>
      have standing : seat.standing =
          { votingPower := seat.votingPower, roles := ledger.roles account } := by
        rw [Seat.standing, Number.natCast_inj.mp rolesEq]
      subst powerEq callerEq
      rw [standing]
      exact .empowered done actionEq (granted admin)
  | granted admin | revoked admin =>
      have standing : seat.standing =
          { votingPower := ledger.votes account, roles := seat.roles } := by
        rw [Seat.standing, Int.ofNat.inj powerEq]
      subst callerEq
      rw [standing]
      first
      | exact .appointed done (.inl actionEq) (granted admin)
      | exact .appointed done (.inr actionEq) (granted admin)

theorem regraded (holds : Represents record ledger) (coherent : ledger.Coherent)
    (move : Move) (account : Account) :
    Members.Regraded params record move account (Members.standing? record account)
      (Members.standing? (move.next params record) account) := by
  rcases holds.next coherent move with
    ⟨fault, -, same⟩ | ⟨receipt, after, done, afterHolds, -, step⟩
  · rw [same]
    exact .kept _
  · rw [holds.standing?_eq, afterHolds.standing?_eq]
    rcases step.seats_cases with same | ⟨target, power, mask, seat, appoints, seated⟩
    · rw [Ledger.standing?, Ledger.standing?, same]
      exact .kept _
    · rw [seated.entered.standing?_eq, seated.account_eq]
      by_cases here : account = target
      · subst here
        rw [Function.update_self]
        exact holds.regraded_of_seated ⟨receipt, done⟩ appoints seated
      · rw [Function.update_of_ne here]
        exact .kept _

end Represents

/-! ## Runs -/

/-- On the record of a run, every further move changes standings as it may, and a further
run without a result of an admin's action leaves the holders of each role. -/
structure Members.Guarded (params : Params) (record : Text) : Prop where
  regraded : ∀ move account, Regraded params record move account
    (standing? record account) (standing? (move.next params record) account)
  hasRole_eq : ∀ moves : List Move,
    (∀ step move, SucceedsAt params record moves step move → move.action.appointee? = none) →
      ∀ account (role : Role),
        hasRole (recordAfter params record moves) account role.bit =
          hasRole record account role.bit

/-- No privilege escalation: behind every run, power and roles are an admin's to give. -/
theorem members_guarded {params : Params} {start : Text} (seeded : Seeded start)
    (earlier : List Move) : Members.Guarded params (recordAfter params start earlier) := by
  have each (moves : List Move) (move : Move) (account : Account) :
      Members.Regraded params (recordAfter params start moves) move account
        (Members.standing? (recordAfter params start moves) account)
        (Members.standing? (recordAfter params start (moves ++ [move])) account) := by
    rcases seeded.run_represented params moves with ⟨ledger, holds, coherent⟩
    rw [recordAfter_append_singleton]
    exact holds.regraded coherent move account
  refine ⟨fun move account => ?_, fun moves unappointed account role => ?_⟩
  · rw [← recordAfter_append_singleton]
    exact each earlier move account
  · rw [← recordAfter_append]
    -- The induction is on the further moves, the last one taken off.
    induction moves using List.reverseRec with
    | nil => rw [List.append_nil]
    | append_singleton moves move induction =>
        have before := induction fun step other succeeds =>
          unappointed step other
            ((SucceedsAt.append_singleton_iff succeeds.lt_length).mpr succeeds)
        have last := (each (earlier ++ moves) move account).roles_eq fun done =>
          unappointed moves.length move
            (SucceedsAt.last_iff.mpr ⟨rfl, recordAfter_append params start earlier moves ▸ done⟩)
        rw [← before, ← List.append_assoc, Members.hasRole, Members.hasRole,
          Members.roles_eq_standing, Members.roles_eq_standing, last]

/-- In the sample Bob registers himself, and nobody gets or loses a role. -/
theorem sample_members_guarded :
    Members.Guarded Sample.params Sample.start ∧
      (∀ account (role : Role),
        Members.hasRole (recordAfter Sample.params Sample.start Sample.moves) account role.bit =
          Members.hasRole Sample.start account role.bit) ∧
      Members.standing? Sample.start Sample.bob = none ∧
      Members.standing? (recordAfter Sample.params Sample.start Sample.moves) Sample.bob =
        some { votingPower := 100, roles := 0 } := by
  have guarded : Members.Guarded Sample.params Sample.start := members_guarded Sample.seeded []
  have unappointed : ∀ move ∈ Sample.moves, move.action.appointee? = none := by decide
  exact ⟨guarded, guarded.hasRole_eq Sample.moves fun _ _ succeeds =>
    unappointed _ (List.mem_of_getElem? succeeds.1), by decide +kernel, by decide +kernel⟩

end LedgerGovernance
