import LedgerGovernance.Proofs.Number
import LedgerGovernance.Proofs.Units
import LedgerGovernance.Schema.Request

/-! What schemas accept. An accepted value is the one that was given: a whole number within
its bounds, or the value of a text of digits. -/

namespace LedgerGovernance

namespace Judged

variable {α : Type} {judged : Judged α} {value : α}

theorem require_eq_accepted {holds : α → Bool} {problem : Problem} :
    judged.require holds problem = .accepted value ↔
      judged = .accepted value ∧ holds value = true := by
  cases judged with
  | accepted found =>
      by_cases passes : holds found = true
      · rw [require, if_pos passes, accepted.injEq, iff_self_and]
        rintro rfl
        exact passes
      · rw [require, if_neg passes, accepted.injEq]
        constructor
        · nofun
        · rintro ⟨rfl, holding⟩
          exact absurd holding passes
  | flawed problems | rejected problem => simp [require]

theorem within_eq_ok {path : String} :
    judged.within path = .ok value ↔ judged = .accepted value := by
  cases judged <;> simp [within]

end Judged

namespace Schema

variable {least value : Nat} {greatest : Option Nat} {found : Number} {text : String}

theorem whole_eq_accepted :
    whole least greatest found = .accepted value ↔
      found = (value : Number) ∧ least ≤ value ∧ ∀ bound ∈ greatest, value ≤ bound := by
  constructor
  · intro accepted
    unfold whole at accepted
    dsimp only at accepted
    split at accepted
    · rename_i noProblem
      have passed : found.whole? ≠ none ∧ ¬ found < (least : Number) ∧
          ∀ bound ∈ greatest, ¬ (bound : Number) < found := by
        simpa using noProblem
      rcases passed with ⟨isWhole, notSmall, notBig⟩
      rcases Option.ne_none_iff_exists'.mp isWhole with ⟨integer, integerEq⟩
      have same : found = (integer : Number) := Number.whole?_eq_some integerEq
      rw [same, Number.intCast_lt_natCast] at notSmall
      rcases Int.eq_ofNat_of_zero_le (show 0 ≤ integer by omega) with ⟨natural, rfl⟩
      rw [integerEq] at accepted
      cases accepted
      refine ⟨same, by simpa using notSmall, fun bound listed => ?_⟩
      have notAbove := notBig bound listed
      rw [same] at notAbove
      exact Nat.le_of_not_lt fun above => notAbove (Number.natCast_lt.mpr above)
    · cases accepted
  · rintro ⟨rfl, low, high⟩
    have noneAbove : greatest.toList.filter (fun bound => decide (bound < value)) = [] := by
      rw [List.filter_eq_nil_iff]
      intro bound member
      simpa using high bound (Option.mem_toList.mp member)
    simp [whole, Number.whole?_natCast, Number.natCast_lt, Nat.not_lt.mpr low, noneAbove]

theorem number_whole_eq_accepted :
    number (whole least greatest) (some (.number found)) = .accepted value ↔
      found = (value : Number) ∧ least ≤ value ∧ ∀ bound ∈ greatest, value ≤ bound := by
  rw [← whole_eq_accepted]
  cases found with
  | nan => simp [number, whole, Number.whole?]
  | finite rational | infinite negative => rfl

/-- The units of a string are judged as the string. -/
theorem digits_eq_accepted :
    digits (some (.string text)) = .accepted value ↔
      Text.isDecimal 20 text.toList = true ∧ Text.digitsValue text.toList = value := by
  show (if Text.isDecimal 20 (Units.string (Units.ofString text)).toList then
      Judged.accepted (Text.digitsValue (Units.string (Units.ofString text)).toList)
    else .flawed [.notDigits]) = .accepted value ↔ _
  rw [Units.string_ofString]
  by_cases decimal : Text.isDecimal 20 text.toList = true <;> simp [decimal]

end Schema

end LedgerGovernance
