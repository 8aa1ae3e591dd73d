import LedgerGovernance.Account
import LedgerGovernance.Text.Decimal
import LedgerGovernance.Record.Entry
import Mathlib.Algebra.Group.Nat.Defs

/-! Decimal and hexadecimal text: what is written is read back, and no separator of a
record, of an entry or of a composite key is among its characters. Digits without a zero in
front are what is written of their value, so a number has one text without such zeros. -/

namespace LedgerGovernance

namespace Text

/-! ## Stems and endings -/

theorem withoutStem?_eq_some {stem text rest : Text} :
    withoutStem? stem text = some rest ↔ text = stem ++ rest := by
  constructor
  · exact eq_append_of_withoutStem?
  · rintro rfl
    exact withoutStem?_append stem rest

theorem withoutEnding?_eq_some {ending text rest : Text} :
    withoutEnding? ending text = some rest ↔ text = rest ++ ending := by
  rw [withoutEnding?, Option.map_eq_some_iff]
  simp only [withoutStem?_eq_some]
  constructor
  · rintro ⟨back, split, rfl⟩
    rw [← List.reverse_reverse text, split, List.reverse_append, List.reverse_reverse]
  · rintro rfl
    exact ⟨rest.reverse, List.reverse_append, List.reverse_reverse rest⟩

/-! ## Decimal text -/

theorem isDigit_of_mem_decimal {value : Nat} {character : Char}
    (member : character ∈ decimal value) : character.isDigit = true :=
  Nat.isDigit_of_mem_toDigits (by decide) (by decide) member

theorem decimal_ne_nil (value : Nat) : decimal value ≠ [] :=
  Nat.toDigits_ne_nil

theorem not_mem_decimal {character : Char} (other : character.isDigit = false) (value : Nat) :
    character ∉ decimal value := by
  intro member
  rw [isDigit_of_mem_decimal member] at other
  cases other

theorem decimal_injective : Function.Injective decimal := by
  intro left right equal
  rw [← digitsValue_decimal left, equal, digitsValue_decimal]

/-- A value within a bound is read back, if the width has room for the bound. -/
theorem readDecimal?_decimal {width bound value : Nat} (positive : 0 < width)
    (room : bound < 10 ^ width) (fits : value ≤ bound) :
    readDecimal? width bound (decimal value) = some value := by
  have short : (decimal value).length ≤ width :=
    (Nat.length_toDigits_le_iff (by decide) positive).mpr (Nat.lt_of_le_of_lt fits room)
  have digits : (decimal value).all Char.isDigit = true :=
    List.all_eq_true.mpr fun _ member => isDigit_of_mem_decimal member
  simp [readDecimal?, isDecimal, digitsValue_decimal, decimal_ne_nil, short, digits, fits]

theorem readDecimal?_le {width bound value : Nat} {text : Text}
    (read : readDecimal? width bound text = some value) : value ≤ bound := by
  unfold readDecimal? at read
  split at read
  · rename_i fits
    cases read
    exact fits.2
  · cases read

theorem readU32?_decimal {value : Nat} (fits : value ≤ maxU32) :
    readU32? (decimal value) = some value :=
  readDecimal?_decimal (by decide) (by decide) fits

theorem readU64?_decimal {value : Nat} (fits : value ≤ maxU64) :
    readU64? (decimal value) = some value :=
  readDecimal?_decimal (by decide) (by decide) fits

theorem readCount?_decimal {value : Nat} (fits : value ≤ maxU8) :
    readCount? (decimal value) = some value := by
  have wide : value ≤ maxU32 := Nat.le_trans fits (by decide)
  simp [readCount?, readU32?_decimal wide, fits]

theorem readCount?_of_large {value : Nat} (large : maxU8 < value) (fits : value ≤ maxU32) :
    readCount? (decimal value) = none := by
  simpa [readCount?, readU32?_decimal fits] using large

/-- Only zero is written with a zero in front. -/
theorem decimal_eq_of_head?_zero {value : Nat} (zero : (decimal value).head? = some '0') :
    decimal value = ['0'] := by
  induction value using Nat.strongRecOn with
  | _ value induction =>
      by_cases small : value < 10
      · rw [decimal, Nat.toDigits_of_lt_base small] at zero ⊢
        rw [List.head?_cons, Option.some.injEq] at zero
        rw [zero]
      · have longer : decimal value = decimal (value / 10) ++ [Nat.digitChar (value % 10)] :=
          Nat.toDigits_of_base_le (by decide) (Nat.le_of_not_lt small)
        have first : (decimal (value / 10)).head? = some '0' := by
          cases shorter : decimal (value / 10) with
          | nil => exact absurd shorter (decimal_ne_nil _)
          | cons first rest => rwa [longer, shorter] at zero
        have shorter := induction (value / 10) (by omega) first
        have none : value / 10 = 0 := decimal_injective shorter
        omega

/-- A digit is how its own value is written. -/
theorem decimal_digit {digit : Char} (isDigit : digit.isDigit = true) :
    digit.toNat - '0'.toNat < 10 ∧ decimal (digit.toNat - '0'.toNat) = [digit] := by
  have bounds := Char.isDigit_iff_toNat.mp isDigit
  have zero : '0'.toNat = 48 := rfl
  have nine : '9'.toNat = 57 := rfl
  have small : digit.toNat - '0'.toNat < 10 := by omega
  have same : Nat.digitChar (digit.toNat - '0'.toNat) = digit := by
    apply Char.toNat_inj.mp
    rw [Nat.toNat_digitChar_of_lt_ten small]
    omega
  exact ⟨small, by rw [decimal, Nat.toDigits_of_lt_base small, same]⟩

/-- Behind a number that is not zero, each further digit is the last of a longer one. -/
theorem decimal_append {digits : Text} (all : ∀ digit ∈ digits, digit.isDigit = true)
    {value : Nat} (positive : 0 < value) :
    decimal value ++ digits = decimal (Nat.ofDigitChars 10 digits value) := by
  induction digits generalizing value with
  | nil => simp
  | cons digit digits induction =>
      rcases List.forall_mem_cons.mp all with ⟨isDigit, others⟩
      rcases decimal_digit isDigit with ⟨small, written⟩
      have longer : decimal value ++ [digit] =
          decimal (10 * value + (digit.toNat - '0'.toNat)) := by
        rw [← written]
        exact Nat.toDigits_append_toDigits (by decide) positive small
      rw [Nat.ofDigitChars_cons, ← induction others (by omega), ← longer, List.append_assoc,
        List.singleton_append]

/-- Digits without a zero in front are how their value is written. -/
theorem decimal_digitsValue {digits : Text} (nonempty : digits ≠ [])
    (all : ∀ digit ∈ digits, digit.isDigit = true)
    (minimal : digits.head? = some '0' → digits = ['0']) :
    decimal (digitsValue digits) = digits := by
  cases digits with
  | nil => exact absurd rfl nonempty
  | cons digit digits =>
      rcases List.forall_mem_cons.mp all with ⟨isDigit, others⟩
      rcases decimal_digit isDigit with ⟨-, written⟩
      have value : digitsValue (digit :: digits) =
          Nat.ofDigitChars 10 digits (digit.toNat - '0'.toNat) := by
        rw [digitsValue, Nat.ofDigitChars_cons, Nat.mul_zero, Nat.zero_add]
      by_cases zero : digit = '0'
      · rw [minimal (congrArg some zero)]
        rfl
      · have positive : 0 < digit.toNat - '0'.toNat := by
          have different : digit.toNat ≠ '0'.toNat := mt Char.toNat_inj.mp zero
          have bounds := Char.isDigit_iff_toNat.mp isDigit
          omega
        rw [value, ← decimal_append others positive, written, List.singleton_append]

/-! ## Hexadecimal text -/

private theorem hexDigitValue?_hexDigit (value : Nat) (small : value < 16) :
    hexDigitValue? (hexDigit value) = some value := by
  have all : ∀ digit : Fin 16, hexDigitValue? (hexDigit digit) = some digit.val := by decide
  exact all ⟨value, small⟩

theorem hexDigit_mem (value : Nat) : hexDigit value ∈ "0123456789abcdef".toList := by
  unfold hexDigit
  rw [List.getD_eq_getElem?_getD]
  cases found : "0123456789abcdef".toList[value]? with
  | none => decide
  | some digit => exact List.mem_of_getElem? found

theorem mem_of_mem_hex {bytes : Bytes} {character : Char} (member : character ∈ hex bytes) :
    character ∈ "0123456789abcdef".toList := by
  induction bytes with
  | nil => cases member
  | cons byte bytes induction =>
      rcases List.mem_cons.mp member with rfl | member
      · exact hexDigit_mem _
      · rcases List.mem_cons.mp member with rfl | member
        · exact hexDigit_mem _
        · exact induction member

theorem not_mem_hex {character : Char} (other : character ∉ "0123456789abcdef".toList)
    (bytes : Bytes) : character ∉ hex bytes :=
  fun member => other (mem_of_mem_hex member)

@[simp] theorem length_hex (bytes : Bytes) : (hex bytes).length = 2 * bytes.length := by
  induction bytes with
  | nil => rfl
  | cons byte bytes induction => simp [hex, induction]; omega

@[simp] theorem readHex?_hex (bytes : Bytes) : readHex? (hex bytes) = some bytes := by
  induction bytes with
  | nil => rfl
  | cons byte bytes induction =>
      have bound : byte.toNat < 256 := byte.toNat_lt
      have high := hexDigitValue?_hexDigit (byte.toNat / 16) (by omega)
      have low := hexDigitValue?_hexDigit (byte.toNat % 16) (by omega)
      have whole : 16 * (byte.toNat / 16) + byte.toNat % 16 = byte.toNat :=
        Nat.div_add_mod byte.toNat 16
      simp only [hex, readHex?, high, low, induction, Option.bind_eq_bind, Option.bind_some,
        whole, UInt8.ofNat_toNat]
      rfl

theorem hex_injective : Function.Injective hex := by
  intro left right equal
  have read := readHex?_hex left
  rw [equal, readHex?_hex] at read
  exact (Option.some.inj read).symm

/-! ## Text that may be written -/

theorem decimal_plain (value : Nat) : (decimal value).all Entry.isPlain = true := by
  apply List.all_eq_true.mpr
  intro character member
  have digit := isDigit_of_mem_decimal member
  have notSemicolon : character ≠ ';' := fun equal => by simp [equal] at digit
  have notEquals : character ≠ '=' := fun equal => by simp [equal] at digit
  simp only [Char.isDigit, Bool.and_eq_true, decide_eq_true_eq, ge_iff_le,
    UInt32.le_iff_toNat_le] at digit
  simp only [Entry.isPlain, Bool.and_eq_true, decide_eq_true_eq, Char.le_def,
    UInt32.le_iff_toNat_le, bne_iff_ne, ne_eq]
  refine ⟨⟨⟨?_, ?_⟩, notSemicolon⟩, notEquals⟩
  · exact Nat.le_trans (by decide) digit.1
  · exact Nat.le_trans digit.2 (by decide)

theorem hex_plain (bytes : Bytes) : (hex bytes).all Entry.isPlain = true := by
  have digits : "0123456789abcdef".toList.all Entry.isPlain = true := by decide
  exact List.all_eq_true.mpr fun character member =>
    List.all_eq_true.mp digits character (mem_of_mem_hex member)

end Text

theorem Account.ofHex?_hex {account : Account} (size : account.length = Account.size) :
    Account.ofHex? (Text.hex account) = some account := by
  simp [Account.ofHex?, size]

end LedgerGovernance
