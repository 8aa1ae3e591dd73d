import LedgerGovernance.Proofs.Outcome

/-! Whole numbers among the numbers. Natural numbers keep their order, and as long as
no sum leaves the range in which whole numbers are exact, they keep their sums. -/

namespace LedgerGovernance

namespace Number

theorem natCast_lt {left right : Nat} : (left : Number) < (right : Number) ↔ left < right := by
  show decide ((left : Rat) < (right : Rat)) = true ↔ left < right
  rw [decide_eq_true_iff, Rat.natCast_lt_natCast]

theorem natCast_le {left right : Nat} : (left : Number) ≤ (right : Number) ↔ left ≤ right := by
  show decide ((left : Rat) ≤ (right : Rat)) = true ↔ left ≤ right
  rw [decide_eq_true_iff, Rat.natCast_le_natCast]

theorem natCast_inj {left right : Nat} : (left : Number) = (right : Number) ↔ left = right := by
  constructor
  · intro equal
    exact Rat.natCast_inj.mp (Number.finite.inj equal)
  · exact congrArg _

/-- Nothing compares with `nan`; among all other numbers one of two is at most the other. -/
theorem natCast_le_iff {natural : Nat} {number : Number} :
    (natural : Number) ≤ number ↔ number ≠ .nan ∧ ¬ number < (natural : Number) := by
  cases number with
  | finite value =>
      show decide ((natural : Rat) ≤ value) = true ↔
        Number.finite value ≠ .nan ∧ ¬ decide (value < (natural : Rat)) = true
      have compares : Number.finite value ≠ .nan := nofun
      rw [decide_eq_true_iff, decide_eq_true_iff, Rat.not_lt, and_iff_right compares]
  | infinite negative =>
      show (!negative) = true ↔ Number.infinite negative ≠ .nan ∧ ¬ negative = true
      simp
  | nan => exact ⟨nofun, fun ⟨number, _⟩ => absurd rfl number⟩

theorem intCast_inj {whole : Int} {natural : Nat} :
    (whole : Number) = (natural : Number) ↔ whole = natural := by
  constructor
  · intro equal
    exact Rat.intCast_inj.mp (Number.finite.inj equal)
  · rintro rfl
    rfl

theorem intCast_lt_natCast {whole : Int} {natural : Nat} :
    (whole : Number) < (natural : Number) ↔ whole < natural := by
  show decide ((whole : Rat) < ((natural : Int) : Rat)) = true ↔ whole < natural
  rw [decide_eq_true_iff, Rat.intCast_lt_intCast]

theorem whole?_eq_some {number : Number} {value : Int} (found : number.whole? = some value) :
    number = .finite (value : Rat) := by
  cases number with
  | finite rational =>
      simp only [whole?] at found
      split at found
      · rename_i den
        cases found
        exact congrArg Number.finite (Rat.ext rfl den)
      · cases found
  | infinite _ => cases found
  | nan => cases found

theorem upTo?_eq_some {bound value : Nat} {number : Number} :
    number.upTo? bound = some value ↔ number = (value : Number) ∧ value ≤ bound := by
  constructor
  · intro found
    unfold upTo? at found
    split at found
    · rename_i whole whole?Eq
      split at found
      · rename_i fits
        cases found
        exact ⟨whole?_eq_some whole?Eq, fits⟩
      · cases found
    · cases found
  · rintro ⟨rfl, fits⟩
    exact upTo?_natCast fits

theorem u32_eq_ok {number : Number} {value : Nat} :
    number.u32 = .ok value ↔ number = (value : Number) ∧ value ≤ maxU32 := by
  rw [← upTo?_eq_some]
  unfold u32
  cases number.upTo? maxU32 <;> simp

theorem keyIndex_eq_ok {number : Number} {value : Nat} :
    number.keyIndex = .ok value ↔ number = (value : Number) ∧ value ≤ maxU8 := by
  rw [← upTo?_eq_some]
  unfold keyIndex
  cases number.upTo? maxU8 <;> simp

theorem u8_natCast {value : Nat} (fits : value ≤ maxU8) : (value : Number).u8 = .ok value := by
  rw [u8, upTo?_natCast fits]

theorem u32_natCast {value : Nat} (fits : value ≤ maxU32) :
    (value : Number).u32 = .ok value :=
  u32_eq_ok.mpr ⟨rfl, fits⟩

theorem keyIndex_natCast {index : Nat} (fits : index ≤ maxU8) :
    (index : Number).keyIndex = .ok index := by
  rw [keyIndex, upTo?_natCast fits]

theorem add_natCast {left right : Nat} (small : left + right ≤ exactBound) :
    (left : Number) + (right : Number) = ((left + right : Nat) : Number) := by
  show nearest ((left : Rat) + (right : Rat)) = _
  rw [← Rat.natCast_add, nearest_natCast small]

theorem checkedAdd_natCast {left right : Nat} (leftFits : left ≤ maxU32)
    (rightFits : right ≤ maxU32) :
    Number.checkedAdd (left : Number) (right : Number) =
      if left + right ≤ maxU32 then some ((left + right : Nat) : Number) else none := by
  have small : left + right ≤ exactBound := by
    have bound : maxU32 + maxU32 ≤ exactBound := by decide
    omega
  rw [Number.checkedAdd, add_natCast small]
  simp only [natCast_le]

theorem eq_add_of_checkedAdd {left right sum : Nat} (leftFits : left ≤ maxU32)
    (rightFits : right ≤ maxU32)
    (added : Number.checkedAdd (left : Number) (right : Number) = some (sum : Number)) :
    sum = left + right := by
  rw [checkedAdd_natCast leftFits rightFits] at added
  split at added
  · exact (natCast_inj.mp (Option.some.inj added)).symm
  · cases added

end Number

/-- A support that is read from a number is written as that number. -/
theorem VoteSupport.ofNumber?_eq_some {number : Number} {support : VoteSupport}
    (found : VoteSupport.ofNumber? number = some support) :
    number = (support.code : Number) := by
  rcases Option.bind_eq_some_iff.mp found with ⟨code, codeEq, supportEq⟩
  have same : support.code = code := by simpa using List.find?_some supportEq
  rw [same]
  exact (Number.upTo?_eq_some.mp codeEq).1

namespace Amount

theorem u64?_eq_some {amount : Int} {value : Nat} :
    u64? amount = some value ↔ amount = (value : Int) ∧ value ≤ maxU64 := by
  cases amount with
  | ofNat magnitude =>
      by_cases fits : magnitude ≤ maxU64
      · simp only [u64?, fits, if_true, Option.some.injEq, Int.ofNat_eq_natCast]
        omega
      · simp only [u64?, fits, if_false, Int.ofNat_eq_natCast]
        constructor
        · nofun
        · omega
  | negSucc _ =>
      constructor
      · nofun
      · rintro ⟨impossible, _⟩
        cases impossible

theorem u64_eq_ok {amount : Int} {value : Nat} :
    u64 amount = .ok value ↔ amount = (value : Int) ∧ value ≤ maxU64 := by
  rw [← u64?_eq_some]
  unfold u64
  cases u64? amount <;> simp

theorem u64_natCast {value : Nat} (fits : value ≤ maxU64) : u64 (value : Int) = .ok value :=
  u64_eq_ok.mpr ⟨rfl, fits⟩

end Amount

end LedgerGovernance
