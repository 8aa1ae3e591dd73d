import LedgerGovernance.Proofs.Checked.Members
import LedgerGovernance.Proofs.Ledger.Seats
import LedgerGovernance.Proofs.Record.Writing
import LedgerGovernance.Proofs.Runs

/-! The membership ledger is a map from accounts to what they have as members, in the order in
which the accounts came. The map knows neither texts nor indices. A call that has a result puts
one entry into it, and a call that is refused leaves it. Beside it runs the record, which says
the same at every time. -/

namespace LedgerGovernance

/-! ## The map -/

/-- Accounts with what they have as members, in the order in which they came. -/
abbrev Roll := List (Account × Standing)

namespace Roll

/-- An entry takes the place of the one of its account, or goes behind all others. -/
def put : Roll → Account → Standing → Roll
  | [], account, standing => [(account, standing)]
  | (other, held) :: rest, account, standing =>
      if other = account then (account, standing) :: rest
      else (other, held) :: put rest account standing

/-- The power of an account, zero for one that is not in the map. -/
def votes (roll : Roll) (account : Account) : Nat :=
  ((roll.lookup account).map Standing.votingPower).getD 0

def roles (roll : Roll) (account : Account) : Nat :=
  ((roll.lookup account).map Standing.roles).getD 0

/-- The entry at an index as a member. -/
def member (index : Nat) (entry : Account × Standing) : Member where
  index
  account := entry.1
  votingPower := entry.2.votingPower
  roles := entry.2.roles

theorem put_of_not_mem {roll : Roll} {account : Account}
    (fresh : account ∉ roll.map Prod.fst) (standing : Standing) :
    roll.put account standing = roll ++ [(account, standing)] := by
  induction roll with
  | nil => rfl
  | cons entry roll induction =>
      rw [List.map_cons, List.mem_cons, not_or] at fresh
      rw [put, if_neg (Ne.symm fresh.1), induction fresh.2, List.cons_append]

/-- Where no account comes twice, it is the one entry that is replaced. -/
theorem put_of_getElem? {roll : Roll} {account : Account} {held : Standing} {index : Nat}
    (nodup : (roll.map Prod.fst).Nodup) (found : roll[index]? = some (account, held))
    (standing : Standing) : roll.put account standing = roll.set index (account, standing) := by
  induction roll generalizing index with
  | nil => cases found
  | cons entry roll induction =>
      rw [List.map_cons, List.nodup_cons] at nodup
      cases index with
      | zero =>
          cases found
          rw [put, if_pos rfl, List.set_cons_zero]
      | succ index =>
          rw [List.getElem?_cons_succ] at found
          have apart : entry.1 ≠ account := by
            rintro rfl
            exact nodup.1 (List.mem_map.mpr ⟨_, List.mem_of_getElem? found, rfl⟩)
          rw [put, if_neg apart, induction nodup.2 found, List.set_cons_succ]

end Roll

/-! ## Calls -/

namespace Members

/-- A call that enters a member. -/
inductive Call where
  | set (account : Account) (power : Int) (mask : Number)
  | grant (account : Account) (role : Number)
  | revoke (account : Account) (role : Number)
deriving DecidableEq, Repr

namespace Call

def account : Call → Account
  | set account _ _ | grant account _ | revoke account _ => account

/-- The call on a record. -/
def outcome (params : Params) (record : Text) : Call → Outcome Text
  | set account power mask => Members.set params record account power mask
  | grant account role => grantRole params record account role
  | revoke account role => revokeRole params record account role

/-- The power that the account is to have. -/
def power (roll : Roll) : Call → Int
  | set _ power _ => power
  | grant account _ | revoke account _ => roll.votes account

/-- The roles that the account is to have. Those of a grant and of a revocation come of signed
32-bit words, so that they need be no roles at all. -/
def mask (roll : Roll) : Call → Number
  | set _ _ mask => mask
  | grant account role => ((BitVec.ofNat 32 (roll.roles account) ||| role.toWord).toInt : Number)
  | revoke account role =>
      ((BitVec.ofNat 32 (roll.roles account) &&& ~~~role.toWord &&& 255).toInt : Number)

/-- What the account is to have, where that is something that a member can have. -/
def standing? (roll : Roll) (call : Call) : Option Standing := do
  let votingPower ← Amount.u64? (call.power roll)
  let roles ← roleMask? (call.mask roll)
  return { votingPower, roles }

/-- The map once the call has had a result. -/
def entered (roll : Roll) (call : Call) : Roll :=
  match call.standing? roll with
  | some standing => roll.put call.account standing
  | none => roll

/-- A call for an account, with a power of 64 bits and a mask of one byte. -/
structure Fits (roll : Roll) (call : Call) : Prop where
  account_size : call.account.length = Account.size
  power_fits : ∃ power : Nat, call.power roll = power ∧ power ≤ maxU64
  mask_fits : ∃ roles : Nat, call.mask roll = (roles : Number) ∧ roles ≤ maxU8

/-- What fits is something that a member can have. -/
theorem Fits.exists_standing {roll : Roll} {call : Call} (fits : call.Fits roll) :
    ∃ standing : Standing, Amount.u64? (call.power roll) = some standing.votingPower ∧
      roleMask? (call.mask roll) = some standing.roles := by
  rcases fits with ⟨-, ⟨votingPower, powerEq, powerFits⟩, roles, maskEq, rolesFit⟩
  exact ⟨{ votingPower, roles }, Amount.u64?_eq_some.mpr ⟨powerEq, powerFits⟩,
    Number.upTo?_eq_some.mpr ⟨maskEq, rolesFit⟩⟩

theorem standing?_eq_some {roll : Roll} {call : Call} {standing : Standing} :
    call.standing? roll = some standing ↔
      Amount.u64? (call.power roll) = some standing.votingPower ∧
        roleMask? (call.mask roll) = some standing.roles := by
  simp only [standing?, Option.bind_eq_bind, Option.bind_eq_some_iff, Option.pure_def,
    Option.some.injEq]
  constructor
  · rintro ⟨power, powerEq, roles, rolesEq, rfl⟩
    exact ⟨powerEq, rolesEq⟩
  · rintro ⟨powerEq, rolesEq⟩
    exact ⟨_, powerEq, _, rolesEq, rfl⟩

end Call

end Members

/-- A record beside the map. -/
structure Books where
  record : Text
  roll : Roll
deriving DecidableEq, Repr

namespace Books

/-- The books behind a call. -/
def next (params : Params) (books : Books) (call : Members.Call) : Books :=
  match call.outcome params books.record with
  | .ok record => { record, roll := call.entered books.roll }
  | .error _ => books

/-- The books behind some calls, which began with nothing. -/
def after (params : Params) (calls : List Members.Call) : Books :=
  calls.foldl (next params) { record := [], roll := [] }

/-- The record says what the map says, and limits it. -/
structure Agrees (params : Params) (books : Books) : Prop where
  list_eq : Members.list books.record = books.roll.mapIdx Roll.member
  find?_iff : ∀ (account : Account) (member : Member),
    Members.find? books.record account = some member ↔
      member.account = account ∧ books.roll[member.index]? = some (account, member.standing)
  votes_eq : ∀ account, Members.votes books.record account = books.roll.votes account
  roles_eq : ∀ account, Members.roles books.record account = books.roll.roles account
  accounts_nodup : (books.roll.map Prod.fst).Nodup
  length_le : books.roll.length ≤ params.maxMembers

/-- How the next call ends. -/
structure Answers (params : Params) (books : Books) : Prop where
  granted : ∀ (account : Account) (role : Number) (next : Text),
    Members.grantRole params books.record account role = .ok next →
      (Members.roles next account : Int) =
          (BitVec.ofNat 32 (Members.roles books.record account) ||| role.toWord).toInt ∧
        Members.votes next account = Members.votes books.record account
  revoked : ∀ (account : Account) (role : Number) (next : Text),
    Members.revokeRole params books.record account role = .ok next →
      (Members.roles next account : Int) =
          (BitVec.ofNat 32 (Members.roles books.record account) &&& ~~~role.toWord &&& 255).toInt ∧
        Members.votes next account = Members.votes books.record account
  limited : ∀ call : Members.Call, call.Fits books.roll →
    ((∃ failure, call.outcome params books.record = Outcome.refuse failure ∧
        failure.code = .badConfig) ↔
      call.account ∉ books.roll.map Prod.fst ∧ books.roll.length = params.maxMembers)
  updated : ∀ call : Members.Call, call.Fits books.roll →
    call.account ∈ books.roll.map Prod.fst →
      (∃ next, call.outcome params books.record = .ok next) ∨
        ∃ size : Nat, params.recordCapacity < size ∧ call.outcome params books.record =
          Outcome.refuse (.recordFull size params.recordCapacity)

end Books

/-! ## The map of a ledger -/

namespace Ledger

def roll (ledger : Ledger) : Roll :=
  ledger.seats.map fun seat => (seat.account, seat.standing)

theorem map_fst_roll (ledger : Ledger) :
    ledger.roll.map Prod.fst = ledger.seats.map Seat.account := by
  rw [roll, List.map_map]
  rfl

theorem getElem?_roll (ledger : Ledger) (index : Nat) :
    ledger.roll[index]? = ledger.seats[index]?.map fun seat => (seat.account, seat.standing) :=
  List.getElem?_map

theorem lookup_roll (ledger : Ledger) (account : Account) :
    ledger.roll.lookup account = ledger.standing? account := by
  rw [roll, standing?]
  induction ledger.seats with
  | nil => rfl
  | cons seat seats induction =>
      rw [List.map_cons, List.lookup_cons, List.find?_cons, BEq.comm]
      cases seat.account == account with
      | true => rfl
      | false => exact induction

theorem votes_roll (ledger : Ledger) (account : Account) :
    ledger.roll.votes account = ledger.votes account := by
  rw [Roll.votes, lookup_roll, votes]

theorem roles_roll (ledger : Ledger) (account : Account) :
    ledger.roll.roles account = ledger.roles account := by
  rw [Roll.roles, lookup_roll, roles]

/-- Entering a seat puts its entry into the map. -/
theorem Entered.roll_eq {before after : Ledger} {seat : Seat}
    (entered : before.Entered seat after) :
    after.roll = before.roll.put seat.account seat.standing := by
  cases entered with
  | replaced index old found same =>
      have held : before.roll[index]? = some (seat.account, old.standing) := by
        rw [getElem?_roll, found, Option.map_some, same old found]
      have nodup := before.map_fst_roll.symm ▸ before.accounts_nodup
      rw [Roll.put_of_getElem? nodup held, roll, setSeat, List.map_set, ← roll]
  | added room fresh =>
      rw [Roll.put_of_not_mem (before.map_fst_roll.symm ▸ fresh), roll, addSeat, List.map_append,
        List.map_singleton, ← roll]

theorem mapIdx_roll (ledger : Ledger) : ledger.roll.mapIdx Roll.member = ledger.members := by
  apply List.ext_getElem?
  intro index
  rw [members, List.getElem?_mapIdx, List.getElem?_mapIdx, getElem?_roll, Option.map_map]
  rfl

end Ledger

/-! ## Entering a member -/

theorem Seat.member_eq {seat : Seat} {member : Member} (owner : seat.account = member.account)
    (held : seat.standing = member.standing) : seat.member member.index = member := by
  rcases member with ⟨index, account, votingPower, roles⟩
  simp only [Seat.standing, Member.standing, Standing.mk.injEq] at held
  rcases held with ⟨rfl, rfl⟩
  cases owner
  rfl

namespace Represents

variable {params : Params} {record : Text} {ledger : Ledger} (holds : Represents record ledger)

include holds

theorem mem_memberList_iff {member : Member} :
    member ∈ Members.list record ↔
      ledger.roll[member.index]? = some (member.account, member.standing) := by
  rw [holds.memberList_eq, Ledger.members, List.mem_mapIdx, Ledger.getElem?_roll]
  constructor
  · rintro ⟨index, inside, rfl⟩
    exact congrArg (Option.map _) (List.getElem?_eq_getElem inside)
  · intro entered
    rcases Option.map_eq_some_iff.mp entered with ⟨seat, stored, entry⟩
    rcases List.getElem?_eq_some_iff.mp stored with ⟨inside, rfl⟩
    rcases Prod.mk.inj entry with ⟨owner, held⟩
    exact ⟨member.index, inside, Seat.member_eq owner held⟩

theorem find?_iff {account : Account} {member : Member} :
    Members.find? record account = some member ↔
      member.account = account ∧
        ledger.roll[member.index]? = some (account, member.standing) := by
  constructor
  · intro found
    have same : member.account = account := by simpa using List.find?_some found
    exact ⟨same, same ▸ holds.mem_memberList_iff.mp (List.mem_of_find?_eq_some found)⟩
  · rintro ⟨rfl, entered⟩
    have listed := holds.mem_memberList_iff.mpr entered
    cases found : Members.find? record member.account with
    | none => exact absurd BEq.rfl (List.find?_eq_none.mp found member listed)
    | some other =>
        have same : other.account = member.account := by simpa using List.find?_some found
        rw [List.inj_on_of_nodup_map holds.accounts_nodup (List.mem_of_find?_eq_some found) listed
          same]

/-- A newcomer finds no seat where there are as many members as there may be. -/
theorem set_of_full {account : Account} (size : account.length = Account.size) {power : Int}
    {mask : Number} {standing : Standing}
    (powerEq : Amount.u64? power = some standing.votingPower)
    (maskEq : roleMask? mask = some standing.roles)
    (newcomer : account ∉ ledger.seats.map Seat.account)
    (full : params.maxMembers ≤ ledger.seats.length) :
    Members.set params record account power mask =
      Outcome.refuse (.memberLimit params.maxMembers) := by
  have missing : Members.find? record account = none := by
    cases found : Members.find? record account with
    | none => rfl
    | some member =>
        rcases holds.find?_eq_some found with ⟨seat, stored, owner⟩
        exact absurd (owner ▸ List.mem_map_of_mem (List.mem_of_getElem? stored)) newcomer
  rw [← holds.memberCount_eq] at full
  simp only [Members.set, powerEq, maskEq, Account.hex_of_size size, Outcome.ok_bind, missing,
    if_pos full]

/-- Anyone else is written down, as far as the record has room. -/
theorem set_of_room {account : Account} (size : account.length = Account.size) {power : Int}
    {mask : Number} {standing : Standing}
    (powerEq : Amount.u64? power = some standing.votingPower)
    (maskEq : roleMask? mask = some standing.roles)
    (room : account ∈ ledger.seats.map Seat.account ∨ ledger.seats.length < params.maxMembers) :
    ∃ draft : Draft, Members.set params record account power mask =
      draft.encode params.recordCapacity := by
  have plain := Members.entryText_plain account standing.votingPower standing.roles
  simp only [Members.set, powerEq, maskEq, Account.hex_of_size size, Outcome.ok_bind]
  cases found : Members.find? record account with
  | some member =>
      rcases holds.find?_eq_some found with ⟨seat, stored, -⟩
      have present : (Record.read? record (.member member.index)).isSome = true := by
        rw [holds.read?_eq, Ledger.contents, stored]
        rfl
      simp only [Record.replace?_of_present present plain, Outcome.ok_bind]
      exact ⟨_, rfl⟩
  | none =>
      have space : ¬ params.maxMembers ≤ Members.count record := by
        rw [holds.memberCount_eq]
        exact Nat.not_le_of_lt (room.resolve_left (holds.find?_eq_none found))
      have written := Draft.appendAll_eq ((Draft.ofRecord record).remove Key.memberCount.text) [
        (.memberCount, Text.decimal (Members.count record + 1)),
        (.member (Members.count record), Members.entryText (Text.hex account)
          standing.votingPower standing.roles)]
        (List.forall_mem_cons.mpr ⟨Text.decimal_plain _, List.forall_mem_singleton.mpr plain⟩)
      dsimp only
      rw [if_neg space]
      exact ⟨_, (congrArg (fun made : Outcome Draft => made >>= fun draft =>
        draft.encode params.recordCapacity) written).trans (Outcome.ok_bind _ _)⟩

end Represents

/-- A draft is encoded if it is not too large. -/
theorem Draft.encode_cases (draft : Draft) (capacity : Nat) :
    (∃ next, draft.encode (capacity : Number) = .ok next) ∨
      ∃ size : Nat, capacity < size ∧
        draft.encode (capacity : Number) = Outcome.refuse (.recordFull size capacity) := by
  unfold encode
  dsimp only
  split
  · rename_i large
    exact .inr ⟨_, Number.natCast_lt.mp large, rfl⟩
  · exact .inl ⟨_, rfl⟩

/-! ## The record and the map -/

namespace Books

variable {params : Params} {books : Books}

/-- The ledger that keeps the record and the map together. -/
structure Kept (params : Params) (books : Books) (ledger : Ledger) : Prop where
  holds : Represents books.record ledger
  roll_eq : books.roll = ledger.roll
  length_le : ledger.seats.length ≤ params.maxMembers

namespace Kept

variable {ledger : Ledger} (kept : Kept params books ledger)

include kept

theorem votes_eq (account : Account) :
    Members.votes books.record account = books.roll.votes account := by
  rw [kept.holds.memberVotes_eq, kept.roll_eq, ledger.votes_roll]

theorem roles_eq (account : Account) :
    Members.roles books.record account = books.roll.roles account := by
  rw [kept.holds.memberRoles_eq, kept.roll_eq, ledger.roles_roll]

theorem map_fst_eq : books.roll.map Prod.fst = ledger.seats.map Seat.account := by
  rw [kept.roll_eq, ledger.map_fst_roll]

theorem length_eq : books.roll.length = ledger.seats.length := by
  rw [kept.roll_eq, Ledger.roll, List.length_map]

/-- What a call asks for can be told by the map. -/
theorem outcome_eq (call : Members.Call) :
    call.outcome params books.record =
      Members.set params books.record call.account (call.power books.roll)
        (call.mask books.roll) := by
  cases call with
  | set => rfl
  | grant account role =>
      rw [Members.Call.outcome, Members.grantRole, kept.votes_eq, kept.roles_eq]
      rfl
  | revoke account role =>
      rw [Members.Call.outcome, Members.revokeRole, kept.votes_eq, kept.roles_eq]
      rfl

/-- A call that has a result enters what it asks for. -/
theorem entered {call : Members.Call} {record : Text}
    (done : call.outcome params books.record = .ok record) :
    ∃ (standing : Standing) (after : Ledger), call.standing? books.roll = some standing ∧
      after.standing? call.account = some standing ∧
      Kept params { record, roll := call.entered books.roll } after := by
  rw [kept.outcome_eq] at done
  rcases kept.holds.set done with ⟨seat, after, seated, holds⟩
  have asked : call.standing? books.roll = some seat.standing :=
    Members.Call.standing?_eq_some.mpr ⟨seated.power_eq, seated.roles_eq⟩
  have owner := seated.account_eq
  refine ⟨seat.standing, after, asked, ?_, holds, ?_, ?_⟩
  · rw [seated.entered.standing?_eq, owner, Function.update_self]
  · rw [Members.Call.entered, asked, seated.entered.roll_eq, kept.roll_eq, owner]
  · exact Nat.le_trans seated.length_le (Nat.max_le.mpr ⟨kept.length_le, Nat.le_refl _⟩)

/-- An account has what was asked for it, behind a call that has a result. -/
theorem standing_eq (call : Members.Call) {record : Text}
    (done : call.outcome params books.record = .ok record) :
    call.power books.roll = Members.votes record call.account ∧
      call.mask books.roll = (Members.roles record call.account : Number) := by
  rcases kept.entered done with ⟨standing, after, asked, held, nextKept⟩
  rcases Members.Call.standing?_eq_some.mp asked with ⟨powerEq, maskEq⟩
  rw [Members.votes_eq_standing, Members.roles_eq_standing, nextKept.holds.standing?_eq, held]
  exact ⟨(Amount.u64?_eq_some.mp powerEq).1, (Number.upTo?_eq_some.mp maskEq).1⟩

theorem agrees : books.Agrees params where
  list_eq := by rw [kept.holds.memberList_eq, kept.roll_eq, ledger.mapIdx_roll]
  find?_iff account member := by
    rw [kept.roll_eq]
    exact kept.holds.find?_iff
  votes_eq := kept.votes_eq
  roles_eq := kept.roles_eq
  accounts_nodup := kept.map_fst_eq ▸ ledger.accounts_nodup
  length_le := kept.length_eq ▸ kept.length_le

/-- Where the account has a seat or can have one, only the size of the record counts. -/
theorem outcome_of_room {call : Members.Call} (fits : call.Fits books.roll)
    (room : call.account ∈ books.roll.map Prod.fst ∨
      books.roll.length < params.maxMembers) :
    (∃ next, call.outcome params books.record = .ok next) ∨
      ∃ size : Nat, params.recordCapacity < size ∧ call.outcome params books.record =
        Outcome.refuse (.recordFull size params.recordCapacity) := by
  rcases fits.exists_standing with ⟨standing, powerEq, maskEq⟩
  rw [kept.map_fst_eq, kept.length_eq] at room
  rcases kept.holds.set_of_room fits.account_size powerEq maskEq room with ⟨draft, entering⟩
  rw [kept.outcome_eq, entering]
  exact draft.encode_cases params.recordCapacity

theorem limited {call : Members.Call} (fits : call.Fits books.roll) :
    (∃ failure, call.outcome params books.record = Outcome.refuse failure ∧
        failure.code = .badConfig) ↔
      call.account ∉ books.roll.map Prod.fst ∧ books.roll.length = params.maxMembers := by
  constructor
  · rintro ⟨failure, refused, code⟩
    by_contra vacant
    have room : call.account ∈ books.roll.map Prod.fst ∨
        books.roll.length < params.maxMembers := by
      by_cases member : call.account ∈ books.roll.map Prod.fst
      · exact .inl member
      · have le := kept.length_eq ▸ kept.length_le
        exact .inr (Nat.lt_of_le_of_ne le fun full => vacant ⟨member, full⟩)
    rcases kept.outcome_of_room fits room with ⟨next, done⟩ | ⟨size, -, large⟩
    · rw [done] at refused
      cases refused
    · rw [large] at refused
      cases refused
      cases code
  · rintro ⟨newcomer, full⟩
    rcases fits.exists_standing with ⟨standing, powerEq, maskEq⟩
    rw [kept.map_fst_eq] at newcomer
    have limit := Nat.le_of_eq (full.symm.trans kept.length_eq)
    refine ⟨.memberLimit params.maxMembers, ?_, rfl⟩
    rw [kept.outcome_eq]
    exact kept.holds.set_of_full fits.account_size powerEq maskEq newcomer limit

theorem answers : books.Answers params where
  granted account role next done := by
    rcases kept.standing_eq (.grant account role) done with ⟨powerEq, maskEq⟩
    rw [kept.votes_eq, kept.roles_eq]
    exact ⟨(Number.intCast_inj.mp maskEq).symm, (Int.ofNat.inj powerEq).symm⟩
  revoked account role next done := by
    rcases kept.standing_eq (.revoke account role) done with ⟨powerEq, maskEq⟩
    rw [kept.votes_eq, kept.roles_eq]
    exact ⟨(Number.intCast_inj.mp maskEq).symm, (Int.ofNat.inj powerEq).symm⟩
  limited _ := kept.limited
  updated _ fits member := kept.outcome_of_room fits (.inl member)

end Kept

theorem kept_after (params : Params) (calls : List Members.Call) :
    ∃ ledger, Kept params (after params calls) ledger := by
  induction calls using List.reverseRec with
  | nil => exact ⟨.empty, represents_empty, rfl, Nat.zero_le _⟩
  | append_singleton calls call induction =>
      -- The last call comes on books that are kept; a refused one leaves record and map alike.
      rcases induction with ⟨ledger, kept⟩
      rw [after, List.foldl_append, ← after, List.foldl_cons, List.foldl_nil, next]
      split
      · rename_i record done
        rcases kept.entered done with ⟨standing, later, -, -, nextKept⟩
        exact ⟨later, nextKept⟩
      · exact ⟨ledger, kept⟩

/-- After every sequence of calls the record agrees with the map, and the next call ends as the
map says. -/
theorem after_agrees (params : Params) (calls : List Members.Call) :
    (after params calls).Agrees params ∧ (after params calls).Answers params := by
  rcases kept_after params calls with ⟨ledger, kept⟩
  exact ⟨kept.agrees, kept.answers⟩

/-- There is room for two. A third account is refused, and so is a mask that came out negative;
the roles of those who are there can still be changed. -/
example :
    (after Sample.params [.set Sample.alice 300 7, .grant Sample.bob 1, .grant [] 1,
      .set (List.replicate Account.size 3) 5 0, .revoke Sample.alice 4,
      .grant Sample.bob (.finite (-1))]).roll =
    [(Sample.alice, ⟨300, 3⟩), (Sample.bob, ⟨0, 1⟩)] := by
  decide +kernel

end Books

end LedgerGovernance
