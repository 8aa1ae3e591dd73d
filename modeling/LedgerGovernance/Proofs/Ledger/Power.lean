import LedgerGovernance.Proofs.Ledger.Reading

/-! Voting power as plain sums. The folds of the readers cut every partial sum off at 64
bits; as no power is negative, that is the whole sum cut off once. Where no two members
share an account, the power that is delegated to an account is a sum over the members. -/

namespace LedgerGovernance

namespace Members

/-- The power of the members whose accounts pass a test. -/
def powerWhere (members : List Member) (test : Account → Prop) [DecidablePred test] : Nat :=
  (members.map fun member => if test member.account then member.votingPower else 0).sum

@[simp] theorem powerWhere_nil (test : Account → Prop) [DecidablePred test] :
    powerWhere [] test = 0 := rfl

@[simp] theorem powerWhere_cons (member : Member) (members : List Member)
    (test : Account → Prop) [DecidablePred test] :
    powerWhere (member :: members) test =
      (if test member.account then member.votingPower else 0) + powerWhere members test := by
  simp [powerWhere]

theorem powerWhere_le (members : List Member) (test : Account → Prop) [DecidablePred test] :
    powerWhere members test ≤ (members.map Member.votingPower).sum := by
  induction members with
  | nil => exact Nat.le_refl 0
  | cons member members induction =>
      rw [powerWhere_cons, List.map_cons, List.sum_cons]
      by_cases passes : test member.account
      · rw [if_pos passes]
        omega
      · rw [if_neg passes]
        omega

/-- Who the members are and what each of them weighs. -/
def powers (record : Text) : List (Account × Nat) :=
  (list record).map fun member => (member.account, member.votingPower)

theorem map_snd_powers (record : Text) :
    (powers record).map Prod.snd = (list record).map Member.votingPower :=
  List.map_map

theorem powerWhere_eq_of_powers_eq {left right : Text} (same : powers left = powers right)
    (test : Account → Prop) [DecidablePred test] :
    powerWhere (list left) test = powerWhere (list right) test := by
  have sum (record : Text) : powerWhere (list record) test =
      ((powers record).map fun power => if test power.1 then power.2 else 0).sum := by
    rw [powerWhere, powers, List.map_map]
    rfl
  rw [sum, sum, same]

theorem addPower_min (total power : Nat) :
    addPower (min total maxU64) power = min (total + power) maxU64 := by
  unfold addPower
  omega

theorem foldl_addPower (members : List Member) (test : Member → Prop) [DecidablePred test]
    (total : Nat) :
    members.foldl (fun total member =>
        if test member then addPower total member.votingPower else total) (min total maxU64) =
      min (total + (members.map fun member =>
        if test member then member.votingPower else 0).sum) maxU64 := by
  induction members generalizing total with
  | nil => simp
  | cons member members induction =>
      by_cases passes : test member
      · simp only [List.foldl_cons, List.map_cons, List.sum_cons, if_pos passes, addPower_min]
        rw [induction, Nat.add_assoc]
      · simp only [List.foldl_cons, List.map_cons, List.sum_cons, if_neg passes, Nat.zero_add]
        exact induction total

theorem totalPower_eq_min (record : Text) :
    totalPower record = min ((list record).map Member.votingPower).sum maxU64 := by
  have folded := foldl_addPower (list record) (fun _ => True) 0
  simpa [totalPower] using folded

/-- The quorum of a total power is never cut off. -/
theorem quorum_natCast (params : Params) {total : Nat} (fits : total ≤ maxU64) :
    quorum params (total : Int) = (total / 100 * params.quorumPercentage : Nat) := by
  have product : total / 100 * params.quorumPercentage ≤ total / 100 * 100 :=
    Nat.mul_le_mul_left _ params.quorumPercentage_le
  have hundreds : total / 100 * 100 ≤ total := Nat.div_mul_le_self total 100
  have quotient : (total : Int).tdiv 100 = (total / 100 : Nat) := rfl
  rw [quorum, Amount.saturatingMul, quotient, ← Int.natCast_mul, if_pos (by omega)]

theorem quorum_mono (params : Params) {low high : Nat} (le : low ≤ high) (fits : high ≤ maxU64) :
    quorum params (low : Int) ≤ quorum params (high : Int) := by
  rw [quorum_natCast params fits, quorum_natCast params (Nat.le_trans le fits)]
  have quotients : low / 100 ≤ high / 100 := Nat.div_le_div_right le
  exact Int.ofNat_le.mpr (Nat.mul_le_mul_right _ quotients)

/-- With one member for an account, its power is the sum over all that share it. -/
private theorem getD_find?_eq_powerWhere {members : List Member}
    (nodup : (members.map Member.account).Nodup) (account : Account) :
    ((members.find? fun member => member.account == account).map Member.votingPower).getD 0 =
      powerWhere members (· = account) := by
  induction members with
  | nil => rfl
  | cons member members induction =>
      rw [List.map_cons, List.nodup_cons] at nodup
      rw [powerWhere_cons]
      by_cases same : member.account = account
      · have others : powerWhere members (· = account) = 0 := by
          apply List.sum_eq_zero
          intro power powerMember
          rcases List.mem_map.mp powerMember with ⟨other, otherMember, rfl⟩
          apply if_neg
          intro equal
          exact nodup.1 (List.mem_map.mpr ⟨other, otherMember, equal.trans same.symm⟩)
        simp [same, others]
      · simpa [same] using induction nodup.2

theorem votes_eq_powerWhere {record : Text} (nodup : ((list record).map Member.account).Nodup)
    (account : Account) : votes record account = powerWhere (list record) (· = account) :=
  getD_find?_eq_powerWhere nodup account

theorem votingPower_le {record : Text} {member : Member} (listed : member ∈ list record) :
    member.votingPower ≤ maxU64 := by
  rcases List.mem_filterMap.mp listed with ⟨index, -, parsed⟩
  rcases Option.bind_eq_some_iff.mp parsed with ⟨entry, -, parsed⟩
  unfold parse? at parsed
  split at parsed
  · simp only [Option.bind_eq_bind, Option.bind_eq_some_iff, Option.pure_def,
      Option.some.injEq] at parsed
    rcases parsed with ⟨account, -, power, powerEq, roles, -, rfl⟩
    exact Text.readDecimal?_le powerEq
  · cases parsed

theorem votes_le (record : Text) (account : Account) : votes record account ≤ maxU64 := by
  unfold votes
  cases found : find? record account with
  | none => exact Nat.zero_le _
  | some member => exact votingPower_le (List.mem_of_find?_eq_some found)

end Members

namespace Delegations

/-- Each member either is the account, and counts as its own power, or is another one
that has delegated to it. -/
private theorem own_add_delegated {record : Text} {account : Account} (members : List Member) :
    (if delegateOf record account = account then Members.powerWhere members (· = account)
        else 0) +
      (members.map fun member =>
        if member.account ≠ account ∧ delegateOf record member.account = account then
          member.votingPower
        else 0).sum =
      Members.powerWhere members (delegateOf record · = account) := by
  induction members with
  | nil => simp
  | cons member members induction =>
      rw [List.map_cons, List.sum_cons, Members.powerWhere_cons, Members.powerWhere_cons]
      generalize Members.powerWhere members (· = account) = ownRest at induction ⊢
      generalize Members.powerWhere members (delegateOf record · = account) = allRest
        at induction ⊢
      generalize (members.map fun member =>
        if member.account ≠ account ∧ delegateOf record member.account = account then
          member.votingPower
        else 0).sum = othersRest at induction ⊢
      by_cases same : member.account = account
      · by_cases own : delegateOf record account = account
        · simp [same, own] at induction ⊢
          omega
        · simp [same, own] at induction ⊢
          omega
      · by_cases delegated : delegateOf record member.account = account
        · simp [same, delegated] at induction ⊢
          omega
        · simp [same, delegated] at induction ⊢
          omega

/-- What is delegated to an account comes on top of its own power. -/
theorem effectiveVotes_eq_min_sum (record : Text) (account : Account) :
    effectiveVotes record account =
      min ((if delegateOf record account = account then Members.votes record account else 0) +
        ((Members.list record).map fun member =>
          if member.account ≠ account ∧ delegateOf record member.account = account then
            member.votingPower
          else 0).sum) maxU64 := by
  let own := if delegateOf record account = account then Members.votes record account else 0
  have own_le : own ≤ maxU64 := by
    by_cases undelegated : delegateOf record account = account
    · rw [show own = Members.votes record account from if_pos undelegated]
      exact Members.votes_le record account
    · rw [show own = 0 from if_neg undelegated]
      exact Nat.zero_le _
  have folded := Members.foldl_addPower (Members.list record) (fun member =>
    member.account ≠ account ∧ delegateOf record member.account = account) own
  rw [Nat.min_eq_left own_le] at folded
  exact folded

/-- The votes of an account are the power of all members that have it as their delegate,
itself included if it has delegated to nobody. -/
theorem effectiveVotes_eq_min {record : Text}
    (nodup : ((Members.list record).map Member.account).Nodup) (account : Account) :
    effectiveVotes record account =
      min (Members.powerWhere (Members.list record) (delegateOf record · = account))
        maxU64 := by
  rw [effectiveVotes_eq_min_sum, Members.votes_eq_powerWhere nodup, own_add_delegated]

end Delegations

/-! ## Ledgers -/

theorem Represents.totalPower_eq {record : Text} {ledger : Ledger}
    (holds : Represents record ledger) :
    Members.totalPower record = min (ledger.seats.map Seat.votingPower).sum maxU64 := by
  have powers : ledger.members.map Member.votingPower = ledger.seats.map Seat.votingPower := by
    apply List.ext_getElem?
    intro index
    cases found : ledger.seats[index]? <;> simp [Ledger.members, found, Seat.member]
  rw [Members.totalPower_eq_min, holds.memberList_eq, powers]

/-- The votes of an account in a ledger. -/
def Ledger.effectiveVotes (ledger : Ledger) (account : Account) : Nat :=
  min (Members.powerWhere ledger.members (ledger.delegateOf · = account)) maxU64

theorem Represents.effectiveVotes_eq {record : Text} {ledger : Ledger}
    (holds : Represents record ledger) (account : Account) :
    Delegations.effectiveVotes record account = ledger.effectiveVotes account := by
  rw [Delegations.effectiveVotes_eq_min holds.accounts_nodup, holds.memberList_eq,
    Ledger.effectiveVotes]
  simp only [holds.delegateOf_eq]

end LedgerGovernance
