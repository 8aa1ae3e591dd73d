import LedgerGovernance.Fault

/-! Peeling an outcome apart. A call that has a result has one at each of its steps,
and every check on the way was passed. -/

namespace LedgerGovernance

namespace Outcome

variable {α β : Type}

theorem ok_bind (value : α) (next : α → Outcome β) :
    ((.ok value : Outcome α) >>= next) = next value := rfl

theorem error_bind (fault : Fault) (next : α → Outcome β) :
    ((.error fault : Outcome α) >>= next) = .error fault := rfl

theorem pure_eq (value : α) : (pure value : Outcome α) = .ok value := rfl

theorem bind_congr {outcome : Outcome α} {next other : α → Outcome β}
    (same : ∀ value, outcome = .ok value → next value = other value) :
    outcome >>= next = outcome >>= other := by
  cases outcome with
  | ok value => exact same value rfl
  | error fault => rfl

theorem bind_eq_ok {outcome : Outcome α} {next : α → Outcome β} {result : β} :
    outcome >>= next = .ok result ↔
      ∃ value, outcome = .ok value ∧ next value = .ok result := by
  cases outcome <;> simp [bind, Except.bind]

/-- The first step that fails is the one that counts. -/
theorem bind_eq_error {outcome : Outcome α} {next : α → Outcome β} {fault : Fault} :
    outcome >>= next = .error fault ↔
      outcome = .error fault ∨ ∃ value, outcome = .ok value ∧ next value = .error fault := by
  cases outcome <;> simp [bind, Except.bind]

theorem map_eq_ok {outcome : Outcome α} {transform : α → β} {result : β} :
    transform <$> outcome = .ok result ↔
      ∃ value, outcome = .ok value ∧ transform value = result := by
  cases outcome <;> simp [Functor.map, Except.map]

@[simp] theorem pure_eq_ok {value result : α} :
    (pure value : Outcome α) = .ok result ↔ value = result := by
  simp [pure, Except.pure]

theorem exists_of_isOk {outcome : Outcome α} (succeeds : outcome.isOk = true) :
    ∃ value, outcome = .ok value := by
  cases outcome with
  | ok value => exact ⟨value, rfl⟩
  | error fault => cases succeeds

@[simp] theorem refuse_ne_ok {failure : Failure} {result : α} :
    (refuse failure : Outcome α) ≠ .ok result := nofun

/-- What a search has found; to have found nothing is refused. -/
def ofFound (failure : Failure) (found : Option α) : Outcome α :=
  found.elim (refuse failure) .ok

theorem ofFound_eq_ok {failure : Failure} {found : Option α} {value : α} :
    ofFound failure found = .ok value ↔ found = some value := by
  cases found <;> simp [ofFound]

@[simp] theorem illTyped_ne_ok {argument : ArgumentFault} {result : α} :
    (illTyped argument : Outcome α) ≠ .ok result := nofun

end Outcome

/-- Only an account can be written in hexadecimal. -/
theorem Account.hex_eq_ok {account : Account} {text : Text} :
    account.hex = .ok text ↔ account.length = Account.size ∧ Text.hex account = text := by
  unfold Account.hex
  by_cases size : account.length = Account.size <;> simp [size]

end LedgerGovernance
