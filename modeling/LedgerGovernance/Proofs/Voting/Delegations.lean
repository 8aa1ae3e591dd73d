import LedgerGovernance.Proofs.Runs

/-! The delegations in the course of a run. Only an account itself changes its delegate. So a
delegation stands until the account delegates again, and whoever is the delegate of an account
and was not before has it from the last delegation of the account. -/

namespace LedgerGovernance

/-! ## Delegations across a step -/

namespace Ledger.Step

variable {params : Params} {caller account target : Account} {now : Number} {action : Action}
  {before after : Ledger}

theorem delegateOf_of_delegate
    (step : Step params caller now before (.delegate target) after) :
    after.delegateOf caller = target := by
  cases step with
  | entered appoints => cases appoints
  | delegated =>
      by_cases own : caller = target
      · simp [delegateOf, setDelegate, own]
      · simp [delegateOf, setDelegate, own]

/-- Only the account itself changes its delegate. -/
theorem delegateOf_of_other (step : Step params caller now before action after)
    (other : ∀ target, caller = account → action ≠ .delegate target) :
    after.delegateOf account = before.delegateOf account := by
  cases step with
  | @delegated target =>
      have apart : account ≠ caller := fun same => other target same.symm rfl
      exact congrArg (Option.getD · account) (Function.update_of_ne apart _ _)
  | entered _ seated =>
      cases seated.entered with
      | replaced | added => rfl
  | _ => rfl

end Ledger.Step

/-! ## Delegations of a run -/

/-- At a step of a run an account delegates to a target. -/
def DelegatesAt (params : Params) (start : Text) (moves : List Move) (step : Nat)
    (account target : Account) : Prop :=
  ∃ move, SucceedsAt params start moves step move ∧ move.caller = account ∧
    move.action = .delegate target

namespace Represents

variable {params : Params} {start : Text} {ledger : Ledger} (initial : Represents start ledger)
  (coherent : ledger.Coherent) {moves : List Move} {account target : Account}

include initial coherent

theorem delegateOf_succ_of_delegates {step : Nat}
    (delegates : DelegatesAt params start moves step account target) :
    Delegations.delegateOf (recordAfter params start (moves.take (step + 1))) account =
      target := by
  rcases delegates with ⟨move, ⟨standing, receipt, done⟩, rfl, action⟩
  rcases initial.run_represented coherent params (moves.take step) with
    ⟨before, holds, beforeCoherent⟩
  rcases holds.apply beforeCoherent done with ⟨after, afterHolds, ledgerStep⟩
  rw [action] at ledgerStep
  rw [recordAfter_take_succ standing, Move.next, done, afterHolds.delegateOf_eq]
  exact ledgerStep.delegateOf_of_delegate

theorem delegateOf_succ_of_quiet {step : Nat}
    (quiet : ∀ target, ¬ DelegatesAt params start moves step account target) :
    Delegations.delegateOf (recordAfter params start (moves.take (step + 1))) account =
      Delegations.delegateOf (recordAfter params start (moves.take step)) account := by
  cases standing : moves[step]? with
  | none =>
      have ended := List.getElem?_eq_none_iff.mp standing
      rw [List.take_of_length_le ended, List.take_of_length_le (Nat.le_succ_of_le ended)]
  | some move =>
      rw [recordAfter_take_succ standing, Move.next]
      cases done : move.outcome params (recordAfter params start (moves.take step)) with
      | error fault => rfl
      | ok receipt =>
          rcases initial.run_represented coherent params (moves.take step) with
            ⟨before, holds, beforeCoherent⟩
          rcases holds.apply beforeCoherent done with ⟨after, afterHolds, ledgerStep⟩
          rw [holds.delegateOf_eq]
          refine (afterHolds.delegateOf_eq account).trans (ledgerStep.delegateOf_of_other ?_)
          intro target own action
          exact quiet target ⟨move, ⟨standing, receipt, done⟩, own, action⟩

/-- A delegation stands until the account delegates again. -/
theorem delegateOf_stands {first last : Nat} (after : first ≤ last)
    (quiet : ∀ between, first ≤ between → between < last →
      ∀ target, ¬ DelegatesAt params start moves between account target) :
    Delegations.delegateOf (recordAfter params start (moves.take last)) account =
      Delegations.delegateOf (recordAfter params start (moves.take first)) account := by
  induction last, after using Nat.le_induction with
  | base => rfl
  | succ last after induction =>
      rw [initial.delegateOf_succ_of_quiet coherent (quiet last after (Nat.lt_succ_self last))]
      exact induction fun between behind ahead => quiet between behind (Nat.lt_succ_of_lt ahead)

/-- An account that has come to another delegate has delegated to it, and not again since. -/
theorem exists_delegates {first last : Nat} (after : first ≤ last)
    (changed : Delegations.delegateOf (recordAfter params start (moves.take last)) account ≠
      Delegations.delegateOf (recordAfter params start (moves.take first)) account) :
    ∃ step, first ≤ step ∧ step < last ∧
      DelegatesAt params start moves step account
        (Delegations.delegateOf (recordAfter params start (moves.take last)) account) ∧
      ∀ between, step < between → between < last →
        ∀ other, ¬ DelegatesAt params start moves between account other := by
  induction last, after using Nat.le_induction with
  | base => exact absurd rfl changed
  | succ last after induction =>
      by_cases delegates : ∃ target, DelegatesAt params start moves last account target
      · rcases delegates with ⟨target, delegates⟩
        rw [initial.delegateOf_succ_of_delegates coherent delegates]
        exact ⟨last, after, Nat.lt_succ_self last, delegates, fun between _ _ => by omega⟩
      · have quiet := not_exists.mp delegates
        rw [initial.delegateOf_succ_of_quiet coherent quiet] at changed ⊢
        rcases induction changed with ⟨step, behind, ahead, delegates, stands⟩
        refine ⟨step, behind, Nat.lt_succ_of_lt ahead, delegates, fun between later before => ?_⟩
        rcases Nat.eq_or_lt_of_le (Nat.le_of_lt_succ before) with rfl | before
        · exact quiet
        · exact stands between later before

end Represents

end LedgerGovernance
