import ScriptFront.Proofs.Binary64ReadBack

/-! Rounding keeps the order of what is rounded. At one exponent it does so as rounding to
integers does; from one exponent to the next it cannot go past the power of two between them.
So powers of ten part the numbers as they part the decimals, and the leading place of the
shortest decimal of a number tells between which of them the number is. -/
namespace ScriptFront.Binary64

section Integers

variable {num num' den : Nat}

theorem le_roundHalfEven (num den : Nat) : num / den ≤ roundHalfEven num den := by
  simp only [roundHalfEven]
  split <;> omega

theorem roundHalfEven_le_succ (num den : Nat) : roundHalfEven num den ≤ num / den + 1 := by
  simp only [roundHalfEven]
  split <;> omega

theorem roundHalfEven_mono (le : num ≤ num') : roundHalfEven num den ≤ roundHalfEven num' den := by
  obtain less | same := Nat.lt_or_eq_of_le (Nat.div_le_div_right (c := den) le)
  · calc roundHalfEven num den ≤ num / den + 1 := roundHalfEven_le_succ num den
      _ ≤ num' / den := less
      _ ≤ roundHalfEven num' den := le_roundHalfEven num' den
  · -- Above the same integer the remainders are in order.
    have remainders : num % den ≤ num' % den := by
      have split := Nat.div_add_mod num den
      have split' := Nat.div_add_mod num' den
      rw [← same] at split'
      omega
    simp only [roundHalfEven, same]
    split
    · split <;> omega
    · rw [if_neg (by omega)]

end Integers

section Exponents

variable {units units' : Nat}

/-- The binary places by which the last of the digits kept stands above the unit. -/
def shiftOf (units : Nat) : Nat := units.log2 - 52

theorem shiftOf_mono (le : units ≤ units') : shiftOf units ≤ shiftOf units' := by
  unfold shiftOf
  by_cases zero : units = 0
  · simp [zero]
  · have positive : units' ≠ 0 := by omega
    have log : units.log2 ≤ units'.log2 :=
      (Nat.le_log2 positive).mpr ((Nat.log2_self_le zero).trans le)
    omega

/-- At its exponent a value has at most 53 binary digits before the point. -/
theorem significand_lt (scaled den : Nat) :
    scaled / (den * 2 ^ shiftOf (scaled / den)) < 2 * fractionCount := by
  have below : scaled / den < 2 ^ 53 * 2 ^ shiftOf (scaled / den) := by
    rw [← Nat.pow_add]
    refine Nat.lt_of_lt_of_le Nat.lt_log2_self (Nat.pow_le_pow_right (by decide) ?_)
    unfold shiftOf
    omega
  rw [← Nat.div_div_eq_div_mul]
  exact Nat.div_lt_of_lt_mul (Nat.mul_comm _ _ ▸ below)

/-- Above the least exponent a value starts with a one bit. -/
theorem fractionCount_le_significand (scaled den : Nat) (above : 0 < shiftOf (scaled / den)) :
    fractionCount ≤ scaled / (den * 2 ^ shiftOf (scaled / den)) := by
  have log : (scaled / den).log2 = 52 + shiftOf (scaled / den) := by
    unfold shiftOf at above ⊢
    omega
  have nonzero : scaled / den ≠ 0 := by
    intro zero
    rw [zero] at above
    exact absurd above (by decide)
  have leading : 2 ^ 52 * 2 ^ shiftOf (scaled / den) ≤ scaled / den := by
    rw [← Nat.pow_add, ← log]
    exact Nat.log2_self_le nonzero
  rw [← Nat.div_div_eq_div_mul]
  exact (Nat.le_div_iff_mul_le (Nat.two_pow_pos _)).mpr leading

/-- Rounded at its exponent, a value comes up to the next power of two at most. -/
theorem roundHalfEven_le_carry (scaled den : Nat) :
    roundHalfEven scaled (den * 2 ^ shiftOf (scaled / den)) ≤ 2 * fractionCount :=
  (roundHalfEven_le_succ _ _).trans (significand_lt scaled den)

theorem fractionCount_le_roundHalfEven (scaled den : Nat) (above : 0 < shiftOf (scaled / den)) :
    fractionCount ≤ roundHalfEven scaled (den * 2 ^ shiftOf (scaled / den)) :=
  (fractionCount_le_significand scaled den above).trans (le_roundHalfEven _ _)

end Exponents

theorem nearestMagnitude_eq (num den : Nat) :
    nearestMagnitude num den =
      min infinite (shiftOf (num * unitsPerOne / den) * fractionCount +
        roundHalfEven (num * unitsPerOne) (den * 2 ^ shiftOf (num * unitsPerOne / den))) := rfl

/-- The greater of two values on the same scale is read as the greater magnitude, if not as
the same one. -/
theorem nearestMagnitude_mono {num num' : Nat} (le : num ≤ num') (den : Nat) :
    nearestMagnitude num den ≤ nearestMagnitude num' den := by
  rw [nearestMagnitude_eq, nearestMagnitude_eq]
  generalize scaled_eq : num * unitsPerOne = scaled
  generalize scaled_eq' : num' * unitsPerOne = scaled'
  have le : scaled ≤ scaled' := by
    rw [← scaled_eq, ← scaled_eq']
    exact Nat.mul_le_mul_right _ le
  refine min_le_min_left infinite ?_
  obtain less | same := Nat.lt_or_eq_of_le (shiftOf_mono (Nat.div_le_div_right (c := den) le))
  · -- The less comes up to the next power of two at most, and the greater starts there or above.
    have carry := roundHalfEven_le_carry scaled den
    have leading := fractionCount_le_roundHalfEven scaled' den (Nat.zero_lt_of_lt less)
    have exponents := Nat.mul_le_mul_right fractionCount less
    rw [Nat.succ_mul] at exponents
    omega
  · rw [same]
    exact Nat.add_le_add_left (roundHalfEven_mono le) _

/-- The magnitude nearest to a power of ten. -/
def powerMagnitude (exponent : Int) : Nat := (ofDecimal 1 exponent).magnitude

theorem powerMagnitude_le_infinite (exponent : Int) : powerMagnitude exponent ≤ infinite := by
  rw [powerMagnitude, ofDecimal_magnitude]
  exact nearestMagnitude_le _ _

theorem ofDecimal_magnitude_mono {digits digits' : Nat} (le : digits ≤ digits') (exponent : Int) :
    (ofDecimal digits exponent).magnitude ≤ (ofDecimal digits' exponent).magnitude := by
  rw [ofDecimal_magnitude, ofDecimal_magnitude]
  exact nearestMagnitude_mono (Nat.mul_le_mul_right _ le) _

theorem ofDecimal_pow_magnitude (zeros : Nat) (exponent : Int) :
    (ofDecimal (10 ^ zeros) exponent).magnitude = powerMagnitude (exponent + zeros) := by
  rw [← Nat.one_mul (10 ^ zeros), ofDecimal_mul_pow, powerMagnitude]

theorem powerMagnitude_mono {low high : Int} (le : low ≤ high) :
    powerMagnitude low ≤ powerMagnitude high := by
  obtain ⟨zeros, rfl⟩ := Int.le.dest le
  rw [← ofDecimal_pow_magnitude]
  exact ofDecimal_magnitude_mono (Nat.one_le_pow _ _ (by decide)) low

namespace Decimal

/-- The power of ten at the first digit. -/
def leading (d : Decimal) : Int := d.exponent + (Nat.toDigits 10 d.digits).length - 1

variable {d : Decimal} {place : Int}

theorem powerMagnitude_le (positive : 0 < d.digits) (le : place ≤ d.leading) :
    powerMagnitude place ≤ d.magnitude := by
  obtain ⟨more, length⟩ : ∃ more, (Nat.toDigits 10 d.digits).length = more + 1 :=
    Nat.exists_eq_add_one.mpr Nat.length_toDigits_pos
  have digits : 10 ^ more ≤ d.digits := by
    cases more with
    | zero => exact positive
    | succ more =>
      apply Nat.le_of_not_lt
      rw [← Nat.length_toDigits_le_iff (by decide) (Nat.succ_pos more), length]
      omega
  have place_le : place ≤ d.exponent + more := by
    rw [leading, length] at le
    omega
  calc powerMagnitude place ≤ powerMagnitude (d.exponent + more) := powerMagnitude_mono place_le
    _ = (ofDecimal (10 ^ more) d.exponent).magnitude := (ofDecimal_pow_magnitude _ _).symm
    _ ≤ d.magnitude := ofDecimal_magnitude_mono digits d.exponent

theorem magnitude_le (less : d.leading < place) : d.magnitude ≤ powerMagnitude place := by
  have below : d.digits < 10 ^ (Nat.toDigits 10 d.digits).length :=
    (Nat.length_toDigits_le_iff (by decide) Nat.length_toDigits_pos).mp (Nat.le_refl _)
  have le_place : d.exponent + (Nat.toDigits 10 d.digits).length ≤ place := by
    rw [leading] at less
    omega
  calc d.magnitude ≤ _ := ofDecimal_magnitude_mono (Nat.le_of_lt below) d.exponent
    _ = _ := ofDecimal_pow_magnitude _ _
    _ ≤ powerMagnitude place := powerMagnitude_mono le_place

end Decimal

/-- The shortest decimal of a magnitude does not start below a power of ten that the magnitude
has reached, provided that of the power itself does not. -/
theorem le_leading_shortest {place : Int} {magnitude : Nat} (positive : 0 < magnitude)
    (finite : magnitude < infinite)
    (attained : place ≤ (shortest (powerMagnitude place)).leading) :
    place ≤ (shortest magnitude).leading ↔ powerMagnitude place ≤ magnitude := by
  have read := shortest_magnitude finite
  constructor
  · intro le
    have above := Decimal.powerMagnitude_le (shortest_digits_pos positive finite) le
    rwa [read] at above
  · intro le
    by_contra less
    have below := Decimal.magnitude_le (Int.not_le.mp less)
    rw [read] at below
    obtain rfl := Nat.le_antisymm below le
    exact less attained

end ScriptFront.Binary64
