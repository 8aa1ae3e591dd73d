import LedgerGovernance.Ledger.Delegations
import LedgerGovernance.Proofs.Checked.Building
import LedgerGovernance.Proofs.Ledger.Power

/-! Members and delegations with every key and number checked. No counter is read that does
not fit in one byte, so all members stand under keys that can be built; and where an account
is read off an entry, it has twenty bytes. -/

namespace LedgerGovernance

/-! ## What is read -/

namespace Members

theorem count_le (record : Text) : count record ≤ maxU8 :=
  Record.readCount_le record _

theorem mem_list {record : Text} {member : Member} (listed : member ∈ list record) :
    member.index < count record ∧ member.account.length = Account.size := by
  rcases List.mem_filterMap.mp listed with ⟨index, inside, found⟩
  rcases Option.bind_eq_some_iff.mp found with ⟨entry, -, parsed⟩
  unfold parse? at parsed
  split at parsed
  · simp only [Option.bind_eq_bind, Option.bind_eq_some_iff, Option.pure_def,
      Option.some.injEq] at parsed
    rcases parsed with ⟨account, accountEq, power, -, roles, -, rfl⟩
    exact ⟨List.mem_range.mp inside, Account.length_of_ofHex? accountEq⟩
  · cases parsed

theorem mem_of_find? {record : Text} {account : Account} {member : Member}
    (found : find? record account = some member) : member ∈ list record :=
  List.mem_of_find?_eq_some found

end Members

namespace Delegations

/-- Sums of powers are cut off, so that they can always be written. -/
theorem effectiveVotes_le (record : Text) (account : Account) :
    effectiveVotes record account ≤ maxU64 := by
  rw [effectiveVotes_eq_min_sum]
  exact Nat.min_le_right _ _

end Delegations

namespace Checked

/-! ## Members -/

def memberAt? (record : Text) (index : Nat) : Outcome (Option Member) := do
  return (← read? record (.member index)).bind (Members.parse? index)

def members (record : Text) : Outcome (List Member) := do
  let found ← (List.range (Members.count record)).mapM (memberAt? record)
  return found.filterMap id

theorem members_eq (record : Text) : members record = .ok (Members.list record) := by
  have each : ∀ index ∈ List.range (Members.count record),
      memberAt? record index = .ok (Members.at? record index) := by
    intro index inside
    rw [memberAt?, read?_eq record (.member index) (Record.le_of_mem_range inside)]
    rfl
  rw [members, mapM_eq each, Outcome.ok_bind, List.filterMap_map]
  rfl

def member? (record : Text) (account : Account) : Outcome (Option Member) := do
  return (← members record).find? fun member => member.account == account

theorem member?_eq (record : Text) (account : Account) :
    member? record account = .ok (Members.find? record account) := by
  rw [member?, members_eq]
  rfl

def votes (record : Text) (account : Account) : Outcome Nat := do
  return ((← member? record account).map Member.votingPower).getD 0

theorem votes_eq (record : Text) (account : Account) :
    votes record account = .ok (Members.votes record account) := by
  rw [votes, member?_eq]
  rfl

def roles (record : Text) (account : Account) : Outcome Nat := do
  return ((← member? record account).map Member.roles).getD 0

theorem roles_eq (record : Text) (account : Account) :
    roles record account = .ok (Members.roles record account) := by
  rw [roles, member?_eq]
  rfl

def requireRole (record : Text) (account : Account) (role : Role) : Outcome Unit := do
  let roles ← roles record account
  if BitVec.ofNat 32 roles &&& (role.bit : Number).toWord != 0 then return ()
  else do
    let _ ← account.hex
    Outcome.refuse (.lacksRole account role)

theorem requireRole_eq (record : Text) (account : Account) (role : Role) :
    requireRole record account role = Members.requireRole record account role := by
  rw [requireRole, roles_eq]
  rfl

def totalPower (record : Text) : Outcome Nat := do
  return (← members record).foldl (fun total member =>
    Members.addPower total member.votingPower) 0

theorem totalPower_eq (record : Text) : totalPower record = .ok (Members.totalPower record) := by
  rw [totalPower, members_eq]
  rfl

/-- The entry of a member, once its account, its power and its roles are written. -/
def memberEntry (account : Account) (power roles : Nat) : Outcome Text := do
  let hex ← account.hex
  let power ← amount power
  let roles ← word roles
  return hex ++ ':' :: (power ++ ':' :: roles)

theorem memberEntry_eq {account : Account} {power roles : Nat}
    (size : account.length = Account.size) (powerFits : power ≤ maxU64) (rolesFit : roles ≤ maxU8) :
    memberEntry account power roles =
      .ok (Members.entryText (Text.hex account) power roles) := by
  have wide : roles ≤ maxU32 := Nat.le_trans rolesFit (by decide)
  rw [memberEntry, Account.hex_of_size size, amount_natCast powerFits, word_natCast wide]
  rfl

def setMember (params : Params) (record : Text) (account : Account) (power : Int)
    (mask : Number) : Outcome Text :=
  match Amount.u64? power with
  | none => Outcome.refuse (.powerOutOfRange power)
  | some power =>
      match roleMask? mask with
      | none => Outcome.refuse (.invalidRoleMask mask)
      | some mask => do
          let entry ← memberEntry account power mask
          let draft := Draft.ofRecord record
          match ← member? record account with
          | some member =>
              match ← draft.replace? (← key (.member member.index)) entry with
              | some draft => draft.encode params.recordCapacity
              | none => Outcome.refuse (.memberEntryGone member.index)
          | none =>
              let next := Members.count record
              if params.maxMembers ≤ next then
                Outcome.refuse (.memberLimit params.maxMembers)
              else
                let draft ← appendAll (draft.remove Key.memberCount.text) [
                  (.memberCount, word (next + 1 : Nat)), (.member next, .ok entry)]
                draft.encode params.recordCapacity

theorem setMember_eq (params : Params) (record : Text) {account : Account}
    (size : account.length = Account.size) (power : Int) (mask : Number) :
    setMember params record account power mask =
      Members.set params record account power mask := by
  rw [setMember, Members.set]
  cases amountEq : Amount.u64? power with
  | none => rfl
  | some amount =>
  cases rolesEq : roleMask? mask with
  | none => rfl
  | some roles =>
  have entry := memberEntry_eq size (Amount.u64?_eq_some.mp amountEq).2
    (Number.upTo?_eq_some.mp rolesEq).2
  simp only [entry, member?_eq, Account.hex_of_size size, Outcome.ok_bind]
  have small := Members.count_le record
  cases found : Members.find? record account with
  | some member =>
      have inside := (Members.mem_list (Members.mem_of_find? found)).1
      have addressable : member.index ≤ maxU8 := Nat.le_trans (Nat.le_of_lt inside) small
      dsimp only
      rw [key_eq (.member member.index) addressable]
      rfl
  | none =>
      have counted : Members.count record + 1 ≤ maxU32 :=
        Nat.le_trans (Nat.succ_le_succ small) (by decide)
      have appended := appendAll_eq ((Draft.ofRecord record).remove Key.memberCount.text) [
          (.memberCount, Text.decimal (Members.count record + 1)),
          (.member (Members.count record), Members.entryText (Text.hex account) amount roles)]
        (by simp [Key.Addressable, small])
      simp only [word_natCast counted]
      split
      · rfl
      · exact congrArg (· >>= fun draft => draft.encode params.recordCapacity) appended

/-! ## Delegations -/

def delegateOf (record : Text) (account : Account) : Outcome Account := do
  return ((← read? record (.delegate account)).bind Account.ofHex?).getD account

theorem delegateOf_eq (record : Text) {account : Account}
    (size : account.length = Account.size) :
    delegateOf record account = .ok (Delegations.delegateOf record account) := by
  rw [delegateOf, read?_eq record (.delegate account) size]
  rfl

/-- What an account votes with of its own. -/
def ownVotes (record : Text) (account : Account) : Outcome Nat := do
  let target ← delegateOf record account
  if target = account then votes record account else return 0

theorem ownVotes_eq (record : Text) {account : Account}
    (size : account.length = Account.size) :
    ownVotes record account = .ok (if Delegations.delegateOf record account = account then
      Members.votes record account else 0) := by
  rw [ownVotes, delegateOf_eq record size, Outcome.ok_bind, votes_eq]
  split <;> rfl

def effectiveVotes (record : Text) (account : Account) : Outcome Nat := do
  let own ← ownVotes record account
  (← members record).foldlM (fun total member => do
    if member.account = account then return total
    else
      let target ← delegateOf record member.account
      return if target = account then Members.addPower total member.votingPower else total) own

theorem effectiveVotes_eq (record : Text) {account : Account}
    (size : account.length = Account.size) :
    effectiveVotes record account = .ok (Delegations.effectiveVotes record account) := by
  rw [effectiveVotes, ownVotes_eq record size, Outcome.ok_bind, members_eq, Outcome.ok_bind]
  refine foldlM_eq (fun total member listed => ?_) _
  have memberSize := (Members.mem_list listed).2
  by_cases same : member.account = account
  · rw [if_pos same, if_neg (by simp [same])]
    rfl
  · rw [if_neg same, delegateOf_eq record memberSize, Outcome.ok_bind]
    simp only [same, ne_eq, not_false_eq_true, true_and]
    rfl

def setDelegate (params : Params) (record : Text) (voter target : Account) :
    Outcome Text := do
  let key ← key (.delegate voter)
  let draft := Draft.ofRecord record
  if voter = target then
    (draft.remove key).encode params.recordCapacity
  else
    let draft ← draft.set key (← target.hex)
    draft.encode params.recordCapacity

theorem setDelegate_eq (params : Params) (record : Text) {voter : Account}
    (size : voter.length = Account.size) (target : Account) :
    setDelegate params record voter target =
      Delegations.delegate params record voter target := by
  rw [setDelegate, Delegations.delegate, key_eq (.delegate voter) size,
    Account.hex_of_size size]
  rfl

def snapshot (params : Params) (record : Text) (proposalId : Number) (account : Account) :
    Outcome Delegations.Snapshot := do
  let proposalId ← proposalId.u32
  let key ← key (.snapshot proposalId account)
  match (Record.findValue record key).bind Text.readU64? with
  | some votingPower => return { record, votingPower }
  | none =>
      let votingPower ← effectiveVotes record account
      let draft ← (Draft.ofRecord record).set key (← amount votingPower)
      let record ← draft.encode params.recordCapacity
      return { record, votingPower }

theorem snapshot_eq (params : Params) (record : Text) {id : Nat} (fits : id ≤ maxU32)
    {account : Account} (size : account.length = Account.size) :
    snapshot params record (id : Number) account =
      Delegations.snapshot params record (id : Number) account := by
  have powerFits := Delegations.effectiveVotes_le record account
  simp only [snapshot, Delegations.snapshot, Number.u32_natCast fits, Account.hex_of_size size,
    Outcome.ok_bind, key_eq (.snapshot id account) ⟨fits, size⟩, effectiveVotes_eq record size,
    amount_natCast powerFits, Amount.u64_natCast powerFits]
  rfl

end Checked

/-! ## No argument is at fault -/

namespace Members

theorem requireRole_wellTyped (record : Text) {account : Account}
    (size : account.length = Account.size) (role : Role) :
    (requireRole record account role).WellTyped := by
  rw [requireRole, Account.hex_of_size size]
  split
  · exact Outcome.wellTyped_ok _
  · exact Outcome.wellTyped_refuse _

theorem entryText_plain (account : Account) (power roles : Nat) :
    (entryText (Text.hex account) power roles).all Entry.isPlain = true := by
  have colon : Entry.isPlain ':' = true := by decide
  simp only [entryText, List.all_append, List.all_cons, Text.hex_plain, Text.decimal_plain, colon,
    Bool.and_self]

theorem set_wellTyped (params : Params) (record : Text) {account : Account}
    (size : account.length = Account.size) (power : Int) (mask : Number) :
    (set params record account power mask).WellTyped := by
  unfold set
  split
  · exact Outcome.wellTyped_refuse _
  split
  · exact Outcome.wellTyped_refuse _
  rename_i amount _ _ roles _
  have plain := entryText_plain account amount roles
  rw [Account.hex_of_size size, Outcome.ok_bind]
  dsimp only
  split
  · rename_i member _
    apply (Draft.replace?_wellTyped (Key.writable_text (.member member.index) plain)).bind
    intro replaced
    cases replaced with
    | none => exact Outcome.wellTyped_refuse _
    | some draft => exact draft.encode_wellTyped _
  · split
    · exact Outcome.wellTyped_refuse _
    · refine Outcome.WellTyped.bind (Draft.appendAll_wellTyped _
        [(.memberCount, _), (.member _, _)] fun pair member => ?_)
        fun draft => draft.encode_wellTyped _
      rcases List.mem_cons.mp member with rfl | member
      · exact Text.decimal_plain _
      · rw [List.mem_singleton.mp member]
        exact plain

end Members

namespace Delegations

theorem delegate_wellTyped (params : Params) (record : Text) {voter target : Account}
    (size : voter.length = Account.size) (targetSize : target.length = Account.size) :
    (delegate params record voter target).WellTyped := by
  rw [delegate, Account.hex_of_size size, Outcome.ok_bind]
  dsimp only
  split
  · exact Draft.encode_wellTyped _ _
  · rw [Account.hex_of_size targetSize, Outcome.ok_bind]
    have writable := Key.writable_text (.delegate voter) (Text.hex_plain target)
    exact (Draft.set_wellTyped writable).bind fun draft => draft.encode_wellTyped _

theorem snapshot_wellTyped (params : Params) (record : Text) {id : Nat} (fits : id ≤ maxU32)
    {account : Account} (size : account.length = Account.size) :
    (snapshot params record (id : Number) account).WellTyped := by
  rw [snapshot, Account.hex_of_size size, Outcome.ok_bind, Number.u32_natCast fits,
    Outcome.ok_bind]
  dsimp only
  split
  · exact Outcome.wellTyped_ok _
  · rw [Amount.u64_natCast (effectiveVotes_le record account), Outcome.ok_bind]
    have writable := Key.writable_text (.snapshot id account)
      (Text.decimal_plain (effectiveVotes record account))
    exact (Draft.set_wellTyped writable).bind fun draft =>
      (draft.encode_wellTyped _).bind fun next => Outcome.wellTyped_ok _

end Delegations

end LedgerGovernance
