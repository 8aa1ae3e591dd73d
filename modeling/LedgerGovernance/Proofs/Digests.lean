import LedgerGovernance.Digest
import LedgerGovernance.Proofs.Number
import Mathlib.Data.Int.ModEq
import Mathlib.Data.List.Basic
import Mathlib.Logic.Function.Basic

/-! What a digest keeps of its fields. Sixty-four bits cannot tell all byte strings apart,
but no change of one field is lost. Mixing can be undone, and so can the taking in of a
byte; so two byte strings have one digest only if their states, once apart, come together
again before the strings agree for good. A byte moves the difference of two states by less
than 2^9 before the prime multiplies it, and three bytes are too few to take it back to a
multiple of 2^64. -/

namespace LedgerGovernance

namespace Digest

/-! ## Steps that can be undone -/

theorem mul_injective {factor inverse : UInt64} (unit : factor * inverse = 1) :
    Function.Injective (· * factor) := by
  intro left right same
  have undone := congrArg (· * inverse) same
  simpa only [UInt64.mul_assoc, unit, UInt64.mul_one] using undone

/-- The shift is by more than half of the bits, so a second one finds nothing left. -/
theorem xorShift_xorShift (state : UInt64) : xorShift (xorShift state) = state := by
  have nothing : state >>> 33 >>> 33 = 0 := by
    apply UInt64.toNat_inj.mp
    rw [UInt64.toNat_shiftRight, UInt64.toNat_shiftRight, ← Nat.shiftRight_add]
    exact Nat.shiftRight_eq_zero _ _ (Nat.lt_trans state.toNat_lt (by decide))
  rw [xorShift, xorShift, UInt64.shiftRight_xor, nothing, UInt64.xor_zero, UInt64.xor_assoc,
    UInt64.xor_self, UInt64.xor_zero]

theorem mix_injective : Function.Injective mix := by
  have shifting : Function.Injective xorShift :=
    Function.LeftInverse.injective xorShift_xorShift
  have first : (0xff51afd7ed558ccd : UInt64) * 0x4f74430c22a54005 = 1 := by decide
  have second : (0xc4ceb9fe1a85ec53 : UInt64) * 0x9cb4b2f8129337db = 1 := by decide
  exact shifting.comp ((mul_injective second).comp
    (shifting.comp ((mul_injective first).comp shifting)))

theorem absorb_injective (byte : UInt8) : Function.Injective (absorb · byte) := by
  have unit : fnvPrime * 0xce965057aff6957b = 1 := by decide
  intro left right same
  exact (UInt64.xor_left_inj _).mp (mul_injective unit same)

/-- States that differ are kept apart by the same bytes. -/
theorem foldl_absorb_injective (bytes : Bytes) :
    Function.Injective fun state => bytes.foldl absorb state := by
  induction bytes with
  | nil => exact Function.injective_id
  | cons byte bytes induction => exact induction.comp (absorb_injective byte)

/-! ## The gap between two states -/

/-- A byte changes nothing but the lowest byte of a state. -/
theorem toNat_xor_byte (state : UInt64) (byte : UInt8) :
    (state ^^^ byte.toUInt64).toNat =
      256 * (state.toNat / 256) + (state.toNat % 256 ^^^ byte.toNat) := by
  rw [UInt64.toNat_xor, UInt8.toNat_toUInt64]
  have high : (state.toNat ^^^ byte.toNat) / 2 ^ 8 = state.toNat / 2 ^ 8 := by
    rw [Nat.xor_div_two_pow, Nat.div_eq_of_lt byte.toNat_lt, Nat.xor_zero]
  have low : (state.toNat ^^^ byte.toNat) % 2 ^ 8 = state.toNat % 2 ^ 8 ^^^ byte.toNat := by
    rw [Nat.xor_mod_two_pow, Nat.mod_eq_of_lt byte.toNat_lt]
  have whole := Nat.div_add_mod (state.toNat ^^^ byte.toNat) (2 ^ 8)
  rw [high, low] at whole
  exact whole.symm

private theorem low_lt (state : UInt64) (byte : UInt8) :
    (state.toNat % 256 ^^^ byte.toNat) < 256 :=
  Nat.xor_lt_two_pow (n := 8) (Nat.mod_lt _ (by decide)) byte.toNat_lt

theorem absorb_modEq (state : UInt64) (byte : UInt8) :
    (absorb state byte).toNat ≡ (state ^^^ byte.toUInt64).toNat * 0x100000001b3
      [ZMOD 2 ^ 64] := by
  have product : (absorb state byte).toNat =
      (state ^^^ byte.toUInt64).toNat * 0x100000001b3 % 2 ^ 64 := UInt64.toNat_mul _ _
  rw [product]
  push_cast
  exact Int.mod_modEq _ _

/-- Two states that lie apart by a gap, in the arithmetic of 64 bits. -/
def Gap (left right : UInt64) (gap : Int) : Prop :=
  left.toNat - right.toNat ≡ gap [ZMOD 2 ^ 64]

/-- The gap behind two bytes is the one in front of the multiplication, times the prime. -/
theorem gap_absorb {left right : UInt64} {first second : UInt8} {gap : Int}
    (apart : (left ^^^ first.toUInt64).toNat - (right ^^^ second.toUInt64).toNat ≡ gap
      [ZMOD 2 ^ 64]) :
    Gap (absorb left first) (absorb right second) (gap * 0x100000001b3) := by
  have multiplied := apart.mul_right 0x100000001b3
  rw [sub_mul] at multiplied
  exact ((absorb_modEq left first).sub (absorb_modEq right second)).trans multiplied

/-- Two bytes open a gap between states that were one. -/
theorem gap_of_ne (state : UInt64) {first second : UInt8} (different : first ≠ second) :
    ∃ gap : Int, gap ≠ 0 ∧ -255 ≤ gap ∧ gap ≤ 255 ∧
      Gap (absorb state first) (absorb state second) (gap * 0x100000001b3) := by
  have apart : (state ^^^ first.toUInt64).toNat ≠ (state ^^^ second.toUInt64).toNat := by
    intro same
    have words := (UInt64.xor_right_inj _).mp (UInt64.toNat_inj.mp same)
    exact different (UInt8.toUInt64_inj.mp words)
  have firstLow := low_lt state first
  have secondLow := low_lt state second
  have firstWhole := toNat_xor_byte state first
  have secondWhole := toNat_xor_byte state second
  refine ⟨_, ?_, ?_, ?_, gap_absorb (Int.ModEq.refl _)⟩ <;> omega

/-- Whatever bytes two states take in, the gap moves by little before it is multiplied. -/
theorem Gap.absorb {left right : UInt64} {gap : Int} (apart : Gap left right gap)
    (first second : UInt8) :
    ∃ move : Int, -510 ≤ move ∧ move ≤ 510 ∧
      Gap (absorb left first) (absorb right second) ((gap + move) * 0x100000001b3) := by
  have firstLow := low_lt left first
  have secondLow := low_lt right second
  have firstWhole := toNat_xor_byte left first
  have secondWhole := toNat_xor_byte right second
  let move : Int := ((left ^^^ first.toUInt64).toNat - left.toNat) -
    ((right ^^^ second.toUInt64).toNat - right.toNat)
  have moved : (left ^^^ first.toUInt64).toNat - (right ^^^ second.toUInt64).toNat ≡
      gap + move [ZMOD 2 ^ 64] := by
    have shifted := Int.ModEq.add_right move apart
    rwa [show (left.toNat : Int) - right.toNat + move = (left ^^^ first.toUInt64).toNat -
      (right ^^^ second.toUInt64).toNat by omega] at shifted
  refine ⟨move, ?_, ?_, gap_absorb moved⟩ <;> omega

/-- Three moves do not close a gap. The prime is 2^40 + 435, so the sum falls into a part
below 2^40, which has to vanish and leaves a gap of one only, and a part above it, which
then is too small to be a multiple of 2^24. -/
private theorem not_dvd_of_moves {gap first second third : Int} (opened : gap ≠ 0)
    (gapBound : -255 ≤ gap ∧ gap ≤ 255) (firstBound : -510 ≤ first ∧ first ≤ 510)
    (secondBound : -510 ≤ second ∧ second ≤ 510) (thirdBound : -510 ≤ third ∧ third ≤ 510) :
    ¬ (2 ^ 64 : Int) ∣ ((gap * 0x100000001b3 + first) * 0x100000001b3 + second) *
      0x100000001b3 + third := by
  rintro ⟨turns, whole⟩
  have low : 82312875 * gap + 189225 * first + 435 * second + third = 0 := by omega
  have single : gap = 1 ∨ gap = -1 := by omega
  have high : (2 ^ 24 : Int) ∣ 567675 * gap + 870 * first + second := by omega
  rcases single with rfl | rfl
  · have bound := Int.le_of_dvd (by omega) high
    omega
  · have bound := Int.le_of_dvd (by omega) (Int.dvd_neg.mpr high)
    omega

/-- Three bytes do not bring two states together that another byte has set apart. -/
private theorem foldl_absorb_ne_of_gap {left right : UInt64} {gap : Int} (opened : gap ≠ 0)
    (bound : -255 ≤ gap ∧ gap ≤ 255) (apart : Gap left right (gap * 0x100000001b3))
    {first second : Bytes} (firstLength : first.length = 3) (secondLength : second.length = 3) :
    first.foldl absorb left ≠ second.foldl absorb right := by
  rcases List.length_eq_three.mp firstLength with ⟨a, b, c, rfl⟩
  rcases List.length_eq_three.mp secondLength with ⟨d, e, f, rfl⟩
  rcases apart.absorb a d with ⟨move, moveLow, moveHigh, apart⟩
  rcases apart.absorb b e with ⟨next, nextLow, nextHigh, apart⟩
  rcases apart.absorb c f with ⟨last, lastLow, lastHigh, apart⟩
  intro same
  simp only [List.foldl_cons, List.foldl_nil] at same
  rw [Gap, same, sub_self] at apart
  have closed := Int.dvd_of_dvd_mul_left_of_gcd_one (Int.modEq_zero_iff_dvd.mp apart.symm)
    (by decide)
  exact not_dvd_of_moves opened bound ⟨moveLow, moveHigh⟩ ⟨nextLow, nextHigh⟩
    ⟨lastLow, lastHigh⟩ closed

/-! ## Windows of four bytes -/

/-- Up to four bytes lead one state to different states, if they differ. -/
theorem foldl_absorb_ne (state : UInt64) {left right : Bytes}
    (length_eq : left.length = right.length) (short : left.length ≤ 4)
    (different : left ≠ right) : left.foldl absorb state ≠ right.foldl absorb state := by
  induction left generalizing right state with
  | nil => exact absurd (List.length_eq_zero_iff.mp length_eq.symm).symm different
  | cons first left induction =>
      cases right with
      | nil => cases length_eq
      | cons second right =>
          simp only [List.length_cons] at length_eq short
          by_cases same : first = second
          · subst same
            exact induction (absorb state first) (by omega) (by omega)
              fun equal => different (by rw [equal])
          · rcases gap_of_ne state same with ⟨gap, opened, low, high, apart⟩
            intro closed
            -- States that have met stay one; so the bytes behind may be taken to be three.
            have padded := congrArg (fun state =>
              (List.replicate (3 - left.length) 0).foldl absorb state) closed
            simp only [List.foldl_cons, ← List.foldl_append] at padded
            exact foldl_absorb_ne_of_gap opened ⟨low, high⟩ apart
              (by rw [List.length_append, List.length_replicate]; omega)
              (by rw [List.length_append, List.length_replicate]; omega) padded

/-- Byte strings of one length that differ, and only within a window. -/
structure DifferWithin (width : Nat) (left right : Bytes) : Prop where
  length_eq : left.length = right.length
  different : left ≠ right
  window : ∃ start, ∀ place, left[place]? ≠ right[place]? →
    start ≤ place ∧ place < start + width

namespace DifferWithin

variable {width : Nat} {left right before first second behind : Bytes}

theorem of_window (length_eq : first.length = second.length) (short : first.length ≤ width)
    (different : first ≠ second) :
    DifferWithin width (before ++ first ++ behind) (before ++ second ++ behind) where
  length_eq := by simp [length_eq]
  different := by simpa using different
  window := by
    refine ⟨before.length, fun place apart => ?_⟩
    constructor
    · by_contra early
      apply apart
      rw [List.append_assoc, List.append_assoc, List.getElem?_append_left (by omega),
        List.getElem?_append_left (by omega)]
    · by_contra late
      apply apart
      rw [List.getElem?_append_right (by rw [List.length_append]; omega),
        List.getElem?_append_right (by rw [List.length_append]; omega), List.length_append,
        List.length_append, length_eq]

/-- Outside of the window the strings are one. -/
theorem exists_window (within : DifferWithin width left right) :
    ∃ before first second behind, left = before ++ first ++ behind ∧
      right = before ++ second ++ behind ∧ first.length = second.length ∧
      first.length ≤ width ∧ first ≠ second := by
  rcases within.window with ⟨start, window⟩
  have same {place : Nat} (outside : place < start ∨ start + width ≤ place) :
      left[place]? = right[place]? := by
    by_contra apart
    have inside := window place apart
    omega
  have front : left.take start = right.take start := by
    apply List.ext_getElem?
    intro place
    by_cases early : place < start
    · rw [List.getElem?_take_of_lt early, List.getElem?_take_of_lt early, same (.inl early)]
    · rw [List.getElem?_take_eq_none (by omega), List.getElem?_take_eq_none (by omega)]
  have back : (left.drop start).drop width = (right.drop start).drop width := by
    apply List.ext_getElem?
    intro place
    rw [List.drop_drop, List.drop_drop, List.getElem?_drop, List.getElem?_drop,
      same (.inr (by omega))]
  have leftParts : left = left.take start ++ (left.drop start).take width ++
      (left.drop start).drop width := by
    rw [List.append_assoc, List.take_append_drop, List.take_append_drop]
  have rightParts : right = left.take start ++ (right.drop start).take width ++
      (left.drop start).drop width := by
    rw [front, back, List.append_assoc, List.take_append_drop, List.take_append_drop]
  refine ⟨_, _, _, _, leftParts, rightParts, ?_, ?_, ?_⟩
  · simp [within.length_eq]
  · simp
  · intro equal
    rw [equal] at leftParts
    exact within.different (leftParts.trans rightParts.symm)

end DifferWithin

theorem ofFields_ne {left right : List Bytes}
    (within : DifferWithin 4 left.flatten right.flatten) : ofFields left ≠ ofFields right := by
  rcases within.exists_window with
    ⟨before, first, second, behind, leftParts, rightParts, length_eq, short, different⟩
  intro same
  have states := mix_injective same
  rw [leftParts, rightParts] at states
  simp only [List.foldl_append] at states
  exact foldl_absorb_ne _ length_eq short different (foldl_absorb_injective behind states)

/-! ## Fields -/

theorem wordBytes_ne {left right : Nat} (leftFits : left ≤ maxU32) (rightFits : right ≤ maxU32)
    (different : left ≠ right) : wordBytes left ≠ wordBytes right := by
  intro same
  simp only [wordBytes, List.cons.injEq, ← UInt8.toNat_inj, UInt8.toNat_ofNat'] at same
  unfold maxU32 at leftFits rightFits
  omega

/-- What an id is made from beside a proposer: a subject and a time of 32 bits each, and a
nonce of one byte. -/
structure Seed where
  subject : Nat
  time : Nat
  nonce : Nat
  subject_le : subject ≤ maxU32 := by decide
  time_le : time ≤ maxU32 := by decide
  nonce_le : nonce ≤ maxU8 := by decide

namespace Seed

/-- Exactly one of the three is another one. -/
def OneChanged (before after : Seed) : Prop :=
  (before.subject ≠ after.subject ∧ before.time = after.time ∧ before.nonce = after.nonce) ∨
  (before.subject = after.subject ∧ before.time ≠ after.time ∧ before.nonce = after.nonce) ∨
  (before.subject = after.subject ∧ before.time = after.time ∧ before.nonce ≠ after.nonce)

/-- A changed value shows in its own bytes only, whatever stands in front of them. -/
theorem OneChanged.differWithin {before after : Seed} (changed : OneChanged before after)
    (front : Bytes) :
    DifferWithin 4
      (front ++ (operationFields before.subject before.time before.nonce).flatten)
      (front ++ (operationFields after.subject after.time after.nonce).flatten) := by
  have fields (subject time nonce : Nat) :
      front ++ (operationFields subject time nonce).flatten =
        front ++ wordBytes subject ++ wordBytes time ++ [UInt8.ofNat nonce] := by
    simp [operationFields]
  rw [fields, fields]
  rcases changed with ⟨subject, time, nonce⟩ | ⟨subject, time, nonce⟩ | ⟨subject, time, nonce⟩
  · rw [time, nonce, List.append_assoc, List.append_assoc _ _ [_]]
    exact .of_window rfl (Nat.le_refl 4) (wordBytes_ne before.subject_le after.subject_le subject)
  · rw [subject, nonce]
    exact .of_window rfl (Nat.le_refl 4) (wordBytes_ne before.time_le after.time_le time)
  · have different : [UInt8.ofNat before.nonce] ≠ [UInt8.ofNat after.nonce] := by
      have beforeFits := before.nonce_le
      have afterFits := after.nonce_le
      unfold maxU8 at beforeFits afterFits
      simp only [ne_eq, List.cons.injEq, ← UInt8.toNat_inj, UInt8.toNat_ofNat']
      omega
    have within (front : Bytes) : DifferWithin 4 (front ++ [UInt8.ofNat before.nonce] ++ [])
        (front ++ [UInt8.ofNat after.nonce] ++ []) :=
      .of_window rfl (Nat.le_add_left 1 3) different
    rw [subject, time]
    simpa only [List.append_nil] using within _

end Seed

/-! ## Ids -/

theorem proposalId_eq {proposer : Account} (size : proposer.length = Account.size)
    {description now nonce : Nat} (descriptionFits : description ≤ maxU32)
    (nowFits : now ≤ maxU32) (nonceFits : nonce ≤ maxU8) :
    proposalId proposer description now nonce =
      .ok (toId (ofFields (proposalFields proposer description now nonce))) := by
  rw [proposalId, if_neg (by simp [size]), Number.u32_natCast descriptionFits,
    Number.u32_natCast nowFits, Number.u8_natCast nonceFits]
  rfl

theorem operationId_eq {proposal scheduled nonce : Nat} (idFits : proposal ≤ maxU32)
    (timeFits : scheduled ≤ maxU32) (nonceFits : nonce ≤ maxU8) :
    operationId proposal scheduled nonce =
      .ok (toId (ofFields (operationFields proposal scheduled nonce))) := by
  rw [operationId, Number.u32_natCast idFits, Number.u32_natCast timeFits,
    Number.u8_natCast nonceFits]
  rfl

/-- Mixing loses nothing, and a digest shows every change that a window of four bytes holds.
So it shows each change of one value that an id is made of; what an id loses of it, it loses
where the digest is cut down to 32 bits. -/
theorem changes_show :
    Function.Injective mix ∧
    (∀ left right : List Bytes, DifferWithin 4 left.flatten right.flatten →
      ofFields left ≠ ofFields right) ∧
    (∀ proposer : Account, proposer.length = Account.size →
      (∀ seed : Seed, proposalId proposer seed.subject seed.time seed.nonce = .ok (toId
        (ofFields (proposalFields proposer seed.subject seed.time seed.nonce)))) ∧
      ∀ before after : Seed, before.OneChanged after →
        ofFields (proposalFields proposer before.subject before.time before.nonce) ≠
          ofFields (proposalFields proposer after.subject after.time after.nonce)) ∧
    (∀ seed : Seed, operationId seed.subject seed.time seed.nonce = .ok (toId
      (ofFields (operationFields seed.subject seed.time seed.nonce)))) ∧
    ∀ before after : Seed, before.OneChanged after →
      ofFields (operationFields before.subject before.time before.nonce) ≠
        ofFields (operationFields after.subject after.time after.nonce) := by
  refine ⟨mix_injective, fun _ _ => ofFields_ne, fun proposer size => ⟨fun seed => ?_, ?_⟩,
    fun seed => ?_, ?_⟩
  · exact proposalId_eq size seed.subject_le seed.time_le seed.nonce_le
  · exact fun before after changed => ofFields_ne (changed.differWithin proposer)
  · exact operationId_eq seed.subject_le seed.time_le seed.nonce_le
  · exact fun before after changed => ofFields_ne (changed.differWithin [])

/-- The next nonce gives another digest, and so do two other bytes of six, three apart. -/
theorem next_nonce_shows :
    let alice : Account := List.replicate Account.size 0x01
    let first : Seed := { subject := 42, time := 1000, nonce := 0 }
    let second : Seed := { subject := 42, time := 1000, nonce := 1 }
    alice.length = Account.size ∧ first.OneChanged second ∧
      ofFields (proposalFields alice 42 1000 0) ≠ ofFields (proposalFields alice 42 1000 1) ∧
      ofFields (operationFields 42 1000 0) ≠ ofFields (operationFields 42 1000 1) ∧
      DifferWithin 4 [[0, 1, 2], [3, 4, 5]].flatten [[0, 9, 2], [3, 8, 5]].flatten ∧
      ofFields [[0, 1, 2], [3, 4, 5]] ≠ ofFields [[0, 9, 2], [3, 8, 5]] := by
  intro alice first second
  have changed : first.OneChanged second := .inr (.inr ⟨rfl, rfl, by decide⟩)
  have within : DifferWithin 4 ([0] ++ [1, 2, 3, 4] ++ [5]) ([0] ++ [9, 2, 3, 8] ++ [5]) :=
    .of_window rfl (by decide) (by decide)
  rcases changes_show with ⟨-, windows, proposals, -, operations⟩
  exact ⟨rfl, changed, (proposals alice rfl).2 first second changed,
    operations first second changed, within, windows _ _ within⟩

end Digest

end LedgerGovernance
