import LedgerGovernance.Proofs.Ledger.Steps

/-! Members across a step. A step enters at most one seat; every other account keeps what
it had. Who enters it, and what the seat holds, is told by the action. -/

namespace LedgerGovernance

namespace Ledger

variable {params : Params} {caller : Account} {now : Number} {action : Action}
  {ledger before after : Ledger} {account : Account} {seat : Seat}

/-! ## One seat for each account -/

theorem standing?_eq_some {standing : Standing} :
    ledger.standing? account = some standing ↔
      ∃ seat ∈ ledger.seats, seat.account = account ∧ seat.standing = standing := by
  constructor
  · intro found
    rcases Option.map_eq_some_iff.mp found with ⟨seat, seatEq, rfl⟩
    exact ⟨seat, List.mem_of_find?_eq_some seatEq, by simpa using List.find?_some seatEq, rfl⟩
  · rintro ⟨seat, member, rfl, rfl⟩
    cases found : ledger.seats.find? fun other => other.account == seat.account with
    | none => exact absurd BEq.rfl (List.find?_eq_none.mp found seat member)
    | some other =>
        have same : other = seat := List.inj_on_of_nodup_map ledger.accounts_nodup
          (List.mem_of_find?_eq_some found) member (by simpa using List.find?_some found)
        rw [standing?, found, same, Option.map_some]

namespace Entered

variable (entered : before.Entered seat after)

include entered

/-- The seat that is entered takes the place of the one of its account, if there is one. -/
theorem mem_iff {other : Seat} :
    other ∈ after.seats ↔
      other = seat ∨ other ∈ before.seats ∧ other.account ≠ seat.account := by
  cases entered with
  | replaced index old found same =>
      have inside := (List.getElem?_eq_some_iff.mp found).1
      have owner := same old found
      constructor
      · intro member
        rcases List.mem_iff_getElem?.mp member with ⟨place, placed⟩
        by_cases here : index = place
        · subst here
          rw [setSeat, getElem?_set_same found] at placed
          exact .inl (Option.some.inj placed).symm
        · rw [setSeat, List.getElem?_set_ne here] at placed
          refine .inr ⟨List.mem_of_getElem? placed, fun shared => here ?_⟩
          apply (List.getElem?_inj (by rwa [List.length_map]) before.accounts_nodup).mp
          rw [List.getElem?_map, List.getElem?_map, found, placed, Option.map_some,
            Option.map_some, owner, shared]
      · rintro (rfl | ⟨member, apart⟩)
        · exact List.mem_of_getElem? (getElem?_set_same found other)
        · rcases List.mem_iff_getElem?.mp member with ⟨place, placed⟩
          have elsewhere : index ≠ place := by
            rintro rfl
            exact apart (same other placed)
          exact List.mem_of_getElem? ((List.getElem?_set_ne elsewhere).trans placed)
  | added room fresh =>
      have apart : ∀ other ∈ before.seats, other.account ≠ seat.account :=
        fun other member shared => fresh (shared ▸ List.mem_map_of_mem member)
      constructor
      · intro member
        rcases List.mem_append.mp member with old | last
        · exact .inr ⟨old, apart other old⟩
        · exact .inl (List.mem_singleton.mp last)
      · rintro (rfl | ⟨member, -⟩)
        · exact List.mem_append_right _ (List.mem_singleton_self _)
        · exact List.mem_append_left _ member

theorem standing?_eq :
    after.standing? = Function.update before.standing? seat.account (some seat.standing) := by
  funext account
  by_cases here : account = seat.account
  · subst here
    rw [Function.update_self]
    exact standing?_eq_some.mpr ⟨seat, entered.mem_iff.mpr (.inl rfl), rfl, rfl⟩
  · rw [Function.update_of_ne here]
    apply Option.ext
    intro standing
    rw [standing?_eq_some, standing?_eq_some]
    constructor
    · rintro ⟨other, member, owner, held⟩
      rcases entered.mem_iff.mp member with rfl | ⟨old, -⟩
      · exact absurd owner.symm here
      · exact ⟨other, old, owner, held⟩
    · rintro ⟨other, member, owner, held⟩
      exact ⟨other, entered.mem_iff.mpr (.inr ⟨member, owner ▸ here⟩), owner, held⟩

/-- A newcomer sits behind all others. -/
theorem seats_eq_append (newcomer : before.standing? seat.account = none) :
    after.seats = before.seats ++ [seat] := by
  cases entered with
  | replaced index old found same =>
      have held := standing?_eq_some.mpr
        ⟨old, List.mem_of_getElem? found, same old found, rfl⟩
      rw [newcomer] at held
      cases held
  | added => rfl

end Entered

/-! ## Seats across a step -/

namespace Step

variable (step : Step params caller now before action after)

include step

/-- Only an action that appoints an account touches the seats. -/
theorem seats_cases :
    after.seats = before.seats ∨ ∃ account power mask seat,
      before.Appoints params caller action account power mask ∧
        before.Seated params account power mask seat after := by
  cases step with
  | entered appoints seated => exact .inr ⟨_, _, _, _, appoints, seated⟩
  | _ => exact .inl rfl

/-- A caller who is no admin can but register itself, with the power of a newcomer. -/
theorem newcomer_of_not_admin (plain : before.hasRole caller Role.admin.bit = false) :
    after.seats = before.seats ∨ ∃ seat : Seat,
      seat.votingPower = params.selfRegisterPower ∧ after.seats = before.seats ++ [seat] := by
  rcases step.seats_cases with same | ⟨account, power, mask, seat, appoints, seated⟩
  · exact .inl same
  · cases appoints with
    | registered newcomer =>
        have own := seated.account_eq
        have powerEq := (Amount.u64?_eq_some.mp seated.power_eq).1
        exact .inr ⟨seat, (Int.ofNat.inj powerEq).symm,
          seated.entered.seats_eq_append (own ▸ newcomer)⟩
    | empowered admin | granted admin | revoked admin =>
        rw [plain] at admin
        cases admin

end Step

end Ledger

end LedgerGovernance
