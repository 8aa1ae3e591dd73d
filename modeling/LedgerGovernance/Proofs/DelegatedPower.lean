import LedgerGovernance.Proofs.Checked.Members
import LedgerGovernance.Proofs.Runs
import Mathlib.Algebra.BigOperators.Group.Finset.Piecewise
import Mathlib.Data.List.Dedup

/-! Delegation moves voting power about and neither makes any nor loses any. What is said here
holds of every record on which no two members share an account, whatever delegations stand in
it: chains, circles, and delegations to accounts that are no members. As delegation goes one
level, the members fall into classes by their delegates, and the votes of an account are the
power of its class. -/

namespace LedgerGovernance

/-! ## Classes of members -/

/-- Where each member falls to one account of a list, all of them together have the power of
all members. -/
theorem Members.sum_powerWhere {accounts : List Account} (nodup : accounts.Nodup)
    (image : Account → Account) (members : List Member)
    (covered : ∀ member ∈ members, image member.account ∈ accounts) :
    (accounts.map fun account => powerWhere members (image · = account)).sum =
      (members.map Member.votingPower).sum := by
  induction members with
  | nil => simp
  | cons member members induction =>
      have others := induction fun other listed => covered other (List.mem_cons_of_mem _ listed)
      -- Of all accounts in the list, the member adds to that of its own class only.
      have own : (accounts.map fun account =>
          if image member.account = account then member.votingPower else 0).sum =
            member.votingPower := by
        rw [← List.sum_toFinset _ nodup, Finset.sum_ite_eq,
          if_pos (List.mem_toFinset.mpr (covered member List.mem_cons_self))]
      simp only [powerWhere_cons, List.sum_map_add]
      rw [own, others, List.map_cons, List.sum_cons]

namespace Delegations

variable {record : Text}

theorem length_delegateOf {account : Account} (size : account.length = Account.size) :
    (delegateOf record account).length = Account.size := by
  unfold delegateOf
  cases stored : (Record.read? record (.delegate account)).bind Account.ofHex? with
  | none => exact size
  | some target =>
      rcases Option.bind_eq_some_iff.mp stored with ⟨text, -, parsed⟩
      exact Account.length_of_ofHex? parsed

/-- The accounts that the power of the members can be found with: the members and their
delegates, each of them once. -/
def electorate (record : Text) : List Account :=
  let accounts := (Members.list record).map Member.account
  (accounts ++ accounts.map (delegateOf record)).dedup

theorem length_of_mem_electorate {account : Account} (listed : account ∈ electorate record) :
    account.length = Account.size := by
  have size : ∀ account ∈ (Members.list record).map Member.account,
      account.length = Account.size := by
    intro account listed
    rcases List.mem_map.mp listed with ⟨member, memberListed, rfl⟩
    exact (Members.mem_list memberListed).2
  rcases List.mem_append.mp (List.mem_dedup.mp listed) with own | delegated
  · exact size account own
  · rcases List.mem_map.mp delegated with ⟨voter, voterListed, rfl⟩
    exact length_delegateOf (size voter voterListed)

theorem delegateOf_mem_electorate {member : Member} (listed : member ∈ Members.list record) :
    delegateOf record member.account ∈ electorate record :=
  List.mem_dedup.mpr (List.mem_append_right _
    (List.mem_map_of_mem (List.mem_map_of_mem listed)))

/-! ## Conservation -/

/-- The voting power of the members is found again in the votes of the accounts, all of it and
no more. -/
structure Conserves (record : Text) : Prop where
  /-- The votes of an account are the power of all members whose delegate it is. -/
  readEffectiveVotes_eq : ∀ account : Account, account.length = Account.size →
    readEffectiveVotes record account =
      .ok (min (Members.powerWhere (Members.list record) (delegateOf record · = account)) maxU64)
  effectiveVotes_le : ∀ account, effectiveVotes record account ≤ Members.totalPower record
  electorate_size : ∀ account ∈ electorate record, account.length = Account.size
  sum_effectiveVotes : ((Members.list record).map Member.votingPower).sum ≤ maxU64 →
    ((electorate record).map (effectiveVotes record)).sum = Members.totalPower record

theorem power_conserved (nodup : ((Members.list record).map Member.account).Nodup) :
    Conserves record := by
  have votes := effectiveVotes_eq_min nodup
  have total := Members.totalPower_eq_min record
  have classes (account : Account) :=
    Members.powerWhere_le (Members.list record) (delegateOf record · = account)
  constructor
  case readEffectiveVotes_eq =>
    intro account size
    rw [readEffectiveVotes, Account.hex_of_size size, Outcome.ok_bind, votes]
    rfl
  case effectiveVotes_le =>
    intro account
    rw [votes, total]
    exact min_le_min_right maxU64 (classes account)
  case electorate_size => exact fun account => length_of_mem_electorate
  case sum_effectiveVotes =>
    intro fits
    have whole (account : Account) : effectiveVotes record account =
        Members.powerWhere (Members.list record) (delegateOf record · = account) := by
      rw [votes, Nat.min_eq_left (Nat.le_trans (classes account) fits)]
    rw [total, Nat.min_eq_left fits, List.map_congr_left fun account _ => whole account]
    exact Members.sum_powerWhere (List.nodup_dedup _) (delegateOf record) _
      fun member => delegateOf_mem_electorate

end Delegations

namespace Sample

def carol : Account := List.replicate Account.size 3

/-- Alice has delegated to Bob, and Bob to Carol, who is no member. -/
def chain : Text :=
  "member_count=2;member_0=0101010101010101010101010101010101010101:300:7;".toList ++
  "member_1=0202020202020202020202020202020202020202:100:0;".toList ++
  "delegate_0101010101010101010101010101010101010101=".toList ++
  "0202020202020202020202020202020202020202;".toList ++
  "delegate_0202020202020202020202020202020202020202=".toList ++
  "0303030303030303030303030303030303030303".toList

/-- Along a chain the power of each member goes one step. -/
theorem chain_conserves :
    ((Members.list chain).map Member.account).Nodup ∧ Delegations.Conserves chain ∧
      Delegations.electorate chain = [alice, bob, carol] ∧
      (Delegations.electorate chain).map (Delegations.effectiveVotes chain) = [0, 300, 100] ∧
      Members.totalPower chain = 400 := by
  have nodup : ((Members.list chain).map Member.account).Nodup := by decide +kernel
  exact ⟨nodup, Delegations.power_conserved nodup, by decide +kernel⟩

end Sample

end LedgerGovernance
