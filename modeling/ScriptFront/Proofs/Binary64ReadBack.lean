import Mathlib.Data.Nat.Digits.Defs
import Mathlib.Tactic.Ring
import ScriptFront.Token.Lexeme

/-! The text of a finite number reads back as the number. Rounding looks at the quotient
alone, so a decimal may be written with its zeros moved into the exponent; what is
printed are the digits of a decimal that was tested to read back, laid out without
changing its value. -/
namespace ScriptFront.Binary64

theorem roundHalfEven_mul_right (num den : Nat) {scale : Nat} (positive : 0 < scale) :
    roundHalfEven (num * scale) (den * scale) = roundHalfEven num den := by
  have below : 2 * (num % den) * scale < den * scale ↔ 2 * (num % den) < den :=
    Nat.mul_lt_mul_right positive
  have half : 2 * (num % den) * scale = den * scale ↔ 2 * (num % den) = den :=
    Nat.mul_left_inj (Nat.ne_of_gt positive)
  simp only [roundHalfEven, Nat.mul_div_mul_right num den positive, Nat.mul_mod_mul_right,
    ← Nat.mul_assoc, below, half]

theorem roundHalfEven_mul_self (num : Nat) {den : Nat} (positive : 0 < den) :
    roundHalfEven (num * den) den = num := by
  simp [roundHalfEven, Nat.mul_div_cancel num positive, positive]

theorem nearestMagnitude_mul_right (num den : Nat) {scale : Nat} (positive : 0 < scale) :
    nearestMagnitude (num * scale) (den * scale) = nearestMagnitude num den := by
  have scaled : num * scale * unitsPerOne = num * unitsPerOne * scale := by ring
  have weights (shift : Nat) : den * scale * Nat.pow 2 shift = den * Nat.pow 2 shift * scale := by
    ring
  simp only [nearestMagnitude, scaled, weights, Nat.mul_div_mul_right _ den positive,
    roundHalfEven_mul_right _ _ positive]

/-- Only the quotient matters. -/
theorem nearestMagnitude_congr {num den num' den' : Nat} (positive : 0 < den) (positive' : 0 < den')
    (same : num * den' = num' * den) : nearestMagnitude num den = nearestMagnitude num' den' := by
  rw [← nearestMagnitude_mul_right num den positive', same,
    ← nearestMagnitude_mul_right num' den' positive, Nat.mul_comm den den']

theorem ofDecimal_mul_pow (digits zeros : Nat) (exponent : Int) :
    ofDecimal (digits * 10 ^ zeros) exponent = ofDecimal digits (exponent + zeros) := by
  have places : zeros + exponent.toNat + (-(exponent + zeros)).toNat =
      (exponent + zeros).toNat + (-exponent).toNat := by omega
  have same : digits * 10 ^ zeros * 10 ^ exponent.toNat * 10 ^ (-(exponent + zeros)).toNat =
      digits * 10 ^ (exponent + zeros).toNat * 10 ^ (-exponent).toNat := by
    rw [Nat.mul_assoc, Nat.mul_assoc, ← Nat.pow_add, ← Nat.pow_add, ← Nat.add_assoc, places,
      Nat.pow_add, Nat.mul_assoc]
  simp only [ofDecimal, Nat.pow_eq]
  rw [nearestMagnitude_congr (Nat.pow_pos (by decide)) (Nat.pow_pos (by decide)) same]

theorem ofDecimal_zero (exponent : Int) : ofDecimal 0 exponent = ofMagnitude 0 := by
  have none (den : Nat) : nearestMagnitude 0 den = 0 := by
    rcases Nat.eq_zero_or_pos den with rfl | positive
    · simp [nearestMagnitude, roundHalfEven]
    · simp [nearestMagnitude, roundHalfEven, positive]
  simp only [ofDecimal, Nat.zero_mul, none]

theorem fractionCount_eq : fractionCount = 2 ^ 52 := rfl

theorem fractionCount_pos : 0 < fractionCount := Nat.two_pow_pos 52

theorem infinite_lt : infinite < 2 ^ 63 := by decide

theorem log2_normal {fraction : Nat} (below : fraction < fractionCount) (shift : Nat) :
    ((fractionCount + fraction) * 2 ^ shift).log2 = 52 + shift := by
  have positive : 0 < 2 ^ shift := Nat.two_pow_pos shift
  have count := fractionCount_pos
  have nonzero : (fractionCount + fraction) * 2 ^ shift ≠ 0 :=
    Nat.ne_of_gt (Nat.mul_pos (by omega) positive)
  have twice : 2 ^ (52 + shift + 1) = 2 * fractionCount * 2 ^ shift := by
    rw [fractionCount_eq]
    ring
  rw [Nat.log2_eq_iff nonzero, twice, Nat.pow_add, ← fractionCount_eq]
  constructor
  · exact Nat.mul_le_mul_right _ (Nat.le_add_right _ _)
  · exact Nat.mul_lt_mul_of_pos_right (by omega) positive

/-- A value on the grid of the format is read as the magnitude it stands for. -/
theorem nearestMagnitude_of_units {magnitude num den : Nat} (positive : 0 < den)
    (finite : magnitude < infinite) (exact : num * unitsPerOne = units magnitude * den) :
    nearestMagnitude num den = magnitude := by
  have capped : min infinite magnitude = magnitude := Nat.min_eq_right (Nat.le_of_lt finite)
  simp only [nearestMagnitude, exact, Nat.mul_div_cancel _ positive]
  by_cases small : magnitude < fractionCount
  · have few : magnitude.log2 - 52 = 0 := by
      by_cases zero : magnitude = 0
      · simp [zero]
      · have := (Nat.log2_lt zero).mpr (fractionCount_eq ▸ small)
        omega
    simp only [units, if_pos small, few, Nat.pow_eq, Nat.pow_zero, Nat.mul_one, Nat.zero_mul,
      Nat.zero_add, roundHalfEven_mul_self magnitude positive, capped]
  · have count := fractionCount_pos
    have below : magnitude % fractionCount < fractionCount := Nat.mod_lt _ count
    obtain ⟨shift, exponent⟩ : ∃ shift, magnitude / fractionCount = shift + 1 :=
      Nat.exists_eq_add_one.mpr (Nat.div_pos (Nat.le_of_not_lt small) count)
    have weight : 0 < den * 2 ^ shift := Nat.mul_pos positive (Nat.two_pow_pos shift)
    have parts : shift * fractionCount + (fractionCount + magnitude % fractionCount) =
        magnitude := by
      have whole := Nat.div_add_mod magnitude fractionCount
      rw [exponent, Nat.mul_comm, Nat.add_mul] at whole
      omega
    have value : (fractionCount + magnitude % fractionCount) * 2 ^ shift * den =
        (fractionCount + magnitude % fractionCount) * (den * 2 ^ shift) := by ring
    simp only [units, if_neg small, exponent, Nat.add_sub_cancel, Nat.pow_eq,
      log2_normal below shift, Nat.add_sub_cancel_left, value, roundHalfEven_mul_self _ weight,
      parts, capped]

theorem nearestMagnitude_le (num den : Nat) : nearestMagnitude num den ≤ infinite :=
  Nat.min_le_left _ _

theorem toNat_ofMagnitude {magnitude : Nat} (bound : magnitude ≤ infinite) :
    (ofMagnitude magnitude).bits.toNat = magnitude := by
  have small := infinite_lt
  rw [ofMagnitude, UInt64.toNat_ofNat']
  omega

theorem magnitude_ofMagnitude {magnitude : Nat} (bound : magnitude ≤ infinite) :
    (ofMagnitude magnitude).magnitude = magnitude := by
  have small := infinite_lt
  rw [Binary64.magnitude, toNat_ofMagnitude bound, signPlace, Nat.pow_eq]
  omega

theorem ofDecimal_eq (digits : Nat) (exponent : Int) :
    ∃ magnitude ≤ infinite, ofDecimal digits exponent = ofMagnitude magnitude :=
  ⟨_, nearestMagnitude_le _ _, rfl⟩

theorem ofDecimal_magnitude (digits : Nat) (exponent : Int) :
    (ofDecimal digits exponent).magnitude =
      nearestMagnitude (digits * 10 ^ exponent.toNat) (10 ^ (-exponent).toNat) := by
  simp only [ofDecimal, Nat.pow_eq]
  exact magnitude_ofMagnitude (nearestMagnitude_le _ _)

/-- A decimal that reads back as a magnitude is read as the number with it. -/
theorem ofDecimal_of_magnitude {d : Decimal} {magnitude : Nat} (same : d.magnitude = magnitude) :
    ofDecimal d.digits d.exponent = ofMagnitude magnitude := by
  rw [Decimal.magnitude, ofDecimal_magnitude] at same
  simp only [ofDecimal, Nat.pow_eq]
  rw [same]

theorem readBack?_magnitude {magnitude : Nat} {low high d : Decimal} {lowNearer : Bool}
    (found : readBack? magnitude low high lowNearer = some d) : d.magnitude = magnitude := by
  unfold readBack? at found
  split at found
  · rename_i fits
    split at found
    · rename_i fits'
      cases lowNearer
      · exact Option.some.inj found ▸ fits'
      · exact Option.some.inj found ▸ fits
    · exact Option.some.inj found ▸ fits
  · split at found
    · rename_i fits
      exact Option.some.inj found ▸ fits
    · cases found

theorem unitsPerOne_eq : unitsPerOne = 2 ^ unitPlace := by
  delta unitsPerOne
  generalize unitPlace = places
  rfl

theorem five_pow_mul_two_pow (n : Nat) : 5 ^ n * 2 ^ n = 10 ^ n := (Nat.mul_pow 5 2 n).symm

theorem exactDecimal_magnitude {magnitude : Nat} (finite : magnitude < infinite) :
    (exactDecimal magnitude).magnitude = magnitude := by
  rw [Decimal.magnitude, ofDecimal_magnitude, exactDecimal]
  apply nearestMagnitude_of_units (Nat.pow_pos (by decide)) finite
  simp only [Int.toNat_neg_natCast, Nat.pow_zero, Nat.mul_one, Int.neg_neg, Int.toNat_natCast,
    Nat.pow_eq]
  rw [unitsPerOne_eq, Nat.mul_assoc, five_pow_mul_two_pow]

/-- The shortest decimal of a magnitude reads back as it. -/
theorem shortest_magnitude {magnitude : Nat} (finite : magnitude < infinite) :
    (shortest magnitude).magnitude = magnitude := by
  unfold shortest
  cases found : (List.range' 1 17).findSome? (withDigits? magnitude) with
  | none => exact exactDecimal_magnitude finite
  | some d =>
    obtain ⟨count, _, tried⟩ := List.exists_of_findSome?_eq_some found
    exact readBack?_magnitude tried

theorem shortest_digits_pos {magnitude : Nat} (positive : 0 < magnitude)
    (finite : magnitude < infinite) : 0 < (shortest magnitude).digits := by
  apply Nat.pos_of_ne_zero
  intro none
  have same := shortest_magnitude finite
  rw [Decimal.magnitude, none, ofDecimal_zero, magnitude_ofMagnitude (Nat.zero_le _)] at same
  omega

end ScriptFront.Binary64
