import Mathlib.Algebra.Order.Ring.Abs
import Mathlib.Data.Rat.Cast.Order
import Mathlib.Tactic.Linarith
import ScriptFront.Proofs.RoundingOrder

/-! Rounding to nearest, ties to even, as a relation on exact rationals. It speaks of the
values of the format alone and not of how a quotient is rounded. The infinity takes the
place `2 ^ 1024` of the next number, so overflow is a case of the same rule. -/
namespace ScriptFront.Binary64

/-- The value of a magnitude; for the infinite one the value at which the finite ones end. -/
def value (magnitude : Nat) : ℚ := units magnitude / unitsPerOne

/-- Independent nearest/even relation for nonnegative numbers: no number is nearer to the
exact value, and one that has another at the same distance is even. -/
structure NearestEven (x : Binary64) (exact : ℚ) : Prop where
  nonnegative : x.bits.toNat ≤ infinite
  nearest : ∀ other ≤ infinite, |value x.magnitude - exact| ≤ |value other - exact|
  even : ∀ other ≤ infinite, |value x.magnitude - exact| = |value other - exact| →
    other = x.magnitude ∨ x.magnitude % 2 = 0

section Grid

/-- Every magnitude is a significand of 53 bits at a binary place. -/
theorem exists_significand (magnitude : Nat) : ∃ shift significand,
    significand < 2 * fractionCount ∧ (shift = 0 ∨ fractionCount ≤ significand) ∧
      magnitude = shift * fractionCount + significand := by
  have count := fractionCount_pos
  by_cases small : magnitude < fractionCount
  · exact ⟨0, magnitude, by omega, .inl rfl, by omega⟩
  · obtain ⟨shift, exponent⟩ : ∃ shift, magnitude / fractionCount = shift + 1 :=
      Nat.exists_eq_add_one.mpr (Nat.div_pos (Nat.le_of_not_lt small) count)
    have below : magnitude % fractionCount < fractionCount := Nat.mod_lt _ count
    have whole := Nat.div_add_mod magnitude fractionCount
    rw [exponent, Nat.mul_comm, Nat.succ_mul] at whole
    exact ⟨shift, fractionCount + magnitude % fractionCount, by omega, .inr (by omega), by omega⟩

/-- The value of a significand at its place, the one that carries to the next place included. -/
theorem units_significand {shift significand : Nat} (carry : significand ≤ 2 * fractionCount)
    (leading : shift = 0 ∨ fractionCount ≤ significand) :
    units (shift * fractionCount + significand) = significand * 2 ^ shift := by
  have count := fractionCount_pos
  by_cases small : significand < fractionCount
  · obtain rfl : shift = 0 := leading.resolve_right (by omega)
    simp [units, small]
  · obtain ⟨fraction, rfl⟩ := Nat.exists_eq_add_of_le (Nat.le_of_not_lt small)
    have large : ¬ shift * fractionCount + (fractionCount + fraction) < fractionCount := by omega
    have parts : shift * fractionCount + (fractionCount + fraction) =
        fraction + (shift + 1) * fractionCount := by ring
    rw [units, if_neg large, parts, Nat.add_mul_mod_self_right, Nat.add_mul_div_right _ _ count,
      Nat.pow_eq]
    obtain less | rfl := Nat.lt_or_eq_of_le (show fraction ≤ fractionCount by omega)
    · simp [Nat.mod_eq_of_lt less, Nat.div_eq_of_lt less]
    · rw [Nat.mod_self, Nat.div_self count]
      simp only [Nat.add_zero, Nat.add_sub_cancel, Nat.add_comm 1, Nat.pow_succ]
      ring

theorem units_succ_significand {shift significand : Nat} (below : significand < 2 * fractionCount)
    (leading : shift = 0 ∨ fractionCount ≤ significand) :
    units (shift * fractionCount + significand + 1) = (significand + 1) * 2 ^ shift := by
  rw [Nat.add_assoc]
  exact units_significand below (leading.imp_right Nat.le_succ_of_le)

/-- The place has no part in whether a magnitude is even. -/
theorem significand_parity (shift significand : Nat) :
    (shift * fractionCount + significand) % 2 = significand % 2 := by
  have even : fractionCount % 2 = 0 := by decide
  rw [Nat.add_mod, Nat.mul_mod, even, Nat.mul_zero, Nat.zero_mod, Nat.zero_add, Nat.mod_mod]

theorem units_strictMono : StrictMono units := by
  apply strictMono_nat_of_lt_succ
  intro magnitude
  obtain ⟨shift, significand, below, leading, rfl⟩ := exists_significand magnitude
  rw [units_significand (Nat.le_of_lt below) leading, units_succ_significand below leading]
  exact Nat.mul_lt_mul_of_pos_right (Nat.lt_succ_self _) (Nat.two_pow_pos shift)

theorem unitsPerOne_pos : (0 : ℚ) < unitsPerOne := by
  rw [Nat.cast_pos, unitsPerOne_eq]
  exact Nat.two_pow_pos unitPlace

theorem value_strictMono : StrictMono value := by
  intro low high less
  exact div_lt_div_of_pos_right (Nat.cast_lt.mpr (units_strictMono less)) unitsPerOne_pos

end Grid

section Distance

variable {low high exact : ℚ}

/-- The lower of two values is the nearer one up to their midpoint. -/
theorem low_nearer_iff (less : low < high) :
    |low - exact| ≤ |high - exact| ↔ 2 * exact ≤ low + high := by
  have factors : (high - exact) ^ 2 - (low - exact) ^ 2 =
      (low + high - 2 * exact) * (high - low) := by ring
  rw [← sq_le_sq, ← sub_nonneg, factors, mul_nonneg_iff_of_pos_right (sub_pos.mpr less),
    sub_nonneg]

theorem high_nearer_iff (less : low < high) :
    |high - exact| ≤ |low - exact| ↔ low + high ≤ 2 * exact := by
  have factors : (low - exact) ^ 2 - (high - exact) ^ 2 =
      (2 * exact - (low + high)) * (high - low) := by ring
  rw [← sq_le_sq, ← sub_nonneg, factors, mul_nonneg_iff_of_pos_right (sub_pos.mpr less),
    sub_nonneg]

theorem midpoint_of_tie (less : low < high) (tie : |low - exact| = |high - exact|) :
    2 * exact = low + high :=
  le_antisymm ((low_nearer_iff less).mp tie.le) ((high_nearer_iff less).mp tie.ge)

end Distance

namespace NearestEven

variable {x y : Binary64} {exact : ℚ}

theorem eq_ofMagnitude (nearest : x.NearestEven exact) : x = ofMagnitude x.magnitude := by
  have small := infinite_lt
  have bound := nearest.nonnegative
  rw [magnitude, signPlace, Nat.pow_eq, Nat.mod_eq_of_lt (by omega), ofMagnitude,
    UInt64.ofNat_toNat]

theorem magnitude_le (nearest : x.NearestEven exact) : x.magnitude ≤ infinite :=
  (Nat.mod_le _ _).trans nearest.nonnegative

/-- A magnitude is nearest if the exact value lies between its midpoints with the others, on
one of them only if the magnitude is even. -/
theorem of_midpoints {magnitude : Nat} (bound : magnitude ≤ infinite)
    (above : ∀ low < magnitude, value low + value magnitude ≤ 2 * exact ∧
      (2 * exact = value low + value magnitude → magnitude % 2 = 0))
    (below : ∀ high ≤ infinite, magnitude < high → 2 * exact ≤ value magnitude + value high ∧
      (2 * exact = value magnitude + value high → magnitude % 2 = 0)) :
    (ofMagnitude magnitude).NearestEven exact := by
  have kept := magnitude_ofMagnitude bound
  constructor
  · rwa [toNat_ofMagnitude bound]
  · intro other finite
    rw [kept]
    rcases Nat.lt_trichotomy other magnitude with less | rfl | greater
    · exact (high_nearer_iff (value_strictMono less)).mpr (above other less).1
    · exact le_refl _
    · exact (low_nearer_iff (value_strictMono greater)).mpr (below other finite greater).1
  · intro other finite tie
    rw [kept] at tie ⊢
    rcases Nat.lt_trichotomy other magnitude with less | rfl | greater
    · exact .inr ((above other less).2 (midpoint_of_tie (value_strictMono less) tie.symm))
    · exact .inl rfl
    · exact .inr ((below other finite greater).2 (midpoint_of_tie (value_strictMono greater) tie))

/-- Two even magnitudes are not nearest at once: one between them is nearer. -/
theorem not_lt (nearest : x.NearestEven exact) (other : y.NearestEven exact) :
    ¬ x.magnitude < y.magnitude := by
  intro less
  have tie : |value x.magnitude - exact| = |value y.magnitude - exact| :=
    le_antisymm (nearest.nearest _ other.magnitude_le) (other.nearest _ nearest.magnitude_le)
  have low := (nearest.even _ other.magnitude_le tie).resolve_left (Nat.ne_of_gt less)
  have high := (other.even _ nearest.magnitude_le tie.symm).resolve_left (Nat.ne_of_lt less)
  have between : x.magnitude + 1 < y.magnitude := by omega
  have midpoint := midpoint_of_tie (value_strictMono less) tie
  have nearer := nearest.nearest _ ((Nat.le_of_lt between).trans other.magnitude_le)
  rw [low_nearer_iff (value_strictMono (Nat.lt_succ_self _)), midpoint] at nearer
  have := value_strictMono between
  linarith

theorem unique (nearest : x.NearestEven exact) (other : y.NearestEven exact) : x = y := by
  have same : x.magnitude = y.magnitude :=
    Nat.le_antisymm (Nat.le_of_not_lt (other.not_lt nearest))
      (Nat.le_of_not_lt (nearest.not_lt other))
  rw [nearest.eq_ofMagnitude, other.eq_ofMagnitude, same]

variable {low : Nat}

theorem of_low (finite : low ≤ infinite) (le : value low ≤ exact)
    (half : 2 * exact ≤ value low + value (low + 1))
    (tie : 2 * exact = value low + value (low + 1) → low % 2 = 0) :
    (ofMagnitude low).NearestEven exact := by
  apply of_midpoints finite
  · intro less below
    have := value_strictMono below
    exact ⟨by linarith, fun same => absurd same (by linarith)⟩
  · intro high _ above
    have := value_strictMono.monotone (Nat.succ_le_of_lt above)
    exact ⟨by linarith, fun same => tie (by linarith)⟩

theorem of_high (finite : low + 1 ≤ infinite) (le : exact ≤ value (low + 1))
    (half : value low + value (low + 1) ≤ 2 * exact)
    (tie : 2 * exact = value low + value (low + 1) → (low + 1) % 2 = 0) :
    (ofMagnitude (low + 1)).NearestEven exact := by
  apply of_midpoints finite
  · intro less below
    have := value_strictMono.monotone (Nat.le_of_lt_succ below)
    exact ⟨by linarith, fun same => tie (by linarith)⟩
  · intro high _ above
    have := value_strictMono above
    exact ⟨by linarith, fun same => absurd same (by linarith)⟩

theorem of_overflow (le : value infinite ≤ exact) : (ofMagnitude infinite).NearestEven exact := by
  apply of_midpoints (Nat.le_refl _)
  · intro less below
    have := value_strictMono below
    exact ⟨by linarith, fun same => absurd same (by linarith)⟩
  · intro high finite above
    exact absurd finite (Nat.not_le_of_lt above)

end NearestEven

section Quotients

variable {num den low high : Nat}

theorem value_le_div (positive : 0 < den) :
    value low ≤ num / den ↔ units low * den ≤ num * unitsPerOne := by
  rw [value, div_le_div_iff₀ unitsPerOne_pos (Nat.cast_pos.mpr positive)]
  exact_mod_cast Iff.rfl

theorem div_le_value (positive : 0 < den) :
    (num : ℚ) / den ≤ value high ↔ num * unitsPerOne ≤ units high * den := by
  rw [value, div_le_div_iff₀ (Nat.cast_pos.mpr positive) unitsPerOne_pos]
  exact_mod_cast Iff.rfl

theorem midpoint_le_div (positive : 0 < den) :
    value low + value high ≤ 2 * (num / den) ↔
      (units low + units high) * den ≤ 2 * (num * unitsPerOne) := by
  rw [value, value, ← add_div, ← mul_div_assoc,
    div_le_div_iff₀ unitsPerOne_pos (Nat.cast_pos.mpr positive), mul_assoc 2]
  exact_mod_cast Iff.rfl

theorem div_le_midpoint (positive : 0 < den) :
    2 * ((num : ℚ) / den) ≤ value low + value high ↔
      2 * (num * unitsPerOne) ≤ (units low + units high) * den := by
  rw [value, value, ← add_div, ← mul_div_assoc,
    div_le_div_iff₀ (Nat.cast_pos.mpr positive) unitsPerOne_pos, mul_assoc 2]
  exact_mod_cast Iff.rfl

theorem div_eq_midpoint (positive : 0 < den) :
    2 * ((num : ℚ) / den) = value low + value high ↔
      2 * (num * unitsPerOne) = (units low + units high) * den := by
  rw [le_antisymm_iff, div_le_midpoint positive, midpoint_le_div positive, ← le_antisymm_iff]

/-- Down or up, what is passed over is half a step at most, and to an even number if it is half. -/
theorem roundHalfEven_cases (num den : Nat) :
    (roundHalfEven num den = num / den ∧ 2 * num ≤ (2 * (num / den) + 1) * den ∧
      (2 * num = (2 * (num / den) + 1) * den → num / den % 2 = 0)) ∨
    (roundHalfEven num den = num / den + 1 ∧ (2 * (num / den) + 1) * den ≤ 2 * num ∧
      (2 * num = (2 * (num / den) + 1) * den → (num / den + 1) % 2 = 0)) := by
  have whole := Nat.div_add_mod num den
  have middle : (2 * (num / den) + 1) * den = 2 * (den * (num / den)) + den := by ring
  simp only [roundHalfEven]
  split
  · left
    refine ⟨rfl, ?_, ?_⟩ <;> omega
  · right
    refine ⟨rfl, ?_, ?_⟩ <;> omega

/-- A quotient lies between two magnitudes, of which rounding gives the nearer one. -/
theorem nearestMagnitude_between (num : Nat) (positive : 0 < den) : ∃ low,
    value low ≤ num / den ∧ (num : ℚ) / den ≤ value (low + 1) ∧
    (nearestMagnitude num den = min infinite low ∧
        2 * ((num : ℚ) / den) ≤ value low + value (low + 1) ∧
        (2 * ((num : ℚ) / den) = value low + value (low + 1) → low % 2 = 0) ∨
      nearestMagnitude num den = min infinite (low + 1) ∧
        value low + value (low + 1) ≤ 2 * (num / den) ∧
        (2 * ((num : ℚ) / den) = value low + value (low + 1) → (low + 1) % 2 = 0)) := by
  have weight : 0 < den * 2 ^ shiftOf (num * unitsPerOne / den) :=
    Nat.mul_pos positive (Nat.two_pow_pos _)
  have below := significand_lt (num * unitsPerOne) den
  have leading := fractionCount_le_significand (num * unitsPerOne) den
  have floor := Nat.div_mul_le_self (num * unitsPerOne)
    (den * 2 ^ shiftOf (num * unitsPerOne / den))
  have ceil := Nat.lt_mul_div_succ (num * unitsPerOne) weight
  have rounded := roundHalfEven_cases (num * unitsPerOne)
    (den * 2 ^ shiftOf (num * unitsPerOne / den))
  rw [nearestMagnitude_eq]
  generalize shiftOf (num * unitsPerOne / den) = shift at *
  generalize num * unitsPerOne / (den * 2 ^ shift) = significand at *
  have leading : shift = 0 ∨ fractionCount ≤ significand :=
    (Nat.eq_zero_or_pos shift).imp_right leading
  have low := units_significand (Nat.le_of_lt below) leading
  have high := units_succ_significand below leading
  have middle : (units (shift * fractionCount + significand) +
      units (shift * fractionCount + significand + 1)) * den =
        (2 * significand + 1) * (den * 2 ^ shift) := by
    rw [low, high]
    ring
  refine ⟨shift * fractionCount + significand, ?_, ?_, ?_⟩
  · rw [value_le_div positive, low]
    calc significand * 2 ^ shift * den = significand * (den * 2 ^ shift) := by ring
      _ ≤ num * unitsPerOne := floor
  · rw [div_le_value positive, high]
    calc num * unitsPerOne ≤ den * 2 ^ shift * (significand + 1) := Nat.le_of_lt ceil
      _ = (significand + 1) * 2 ^ shift * den := by ring
  · rw [div_le_midpoint positive, midpoint_le_div positive, div_eq_midpoint positive, middle,
      Nat.add_assoc _ significand 1, significand_parity, significand_parity]
    refine rounded.imp ?_ ?_
    · rintro ⟨down, nearer⟩
      exact ⟨by rw [down], nearer⟩
    · rintro ⟨up, nearer⟩
      exact ⟨by rw [up], nearer⟩

/-- Rounding meets the relation for every quotient. -/
theorem nearestMagnitude_nearestEven (num : Nat) (positive : 0 < den) :
    (ofMagnitude (nearestMagnitude num den)).NearestEven (num / den) := by
  obtain ⟨low, floor, ceil, rounded⟩ := nearestMagnitude_between num positive
  have overflow (above : infinite ≤ low) :
      (ofMagnitude infinite).NearestEven ((num : ℚ) / den) :=
    .of_overflow ((value_strictMono.monotone above).trans floor)
  rcases Nat.lt_or_ge low infinite with finite | above
  · rcases rounded with ⟨down, half, tie⟩ | ⟨up, half, tie⟩
    · rw [down, Nat.min_eq_right (Nat.le_of_lt finite)]
      exact .of_low (Nat.le_of_lt finite) floor half tie
    · rw [up, Nat.min_eq_right finite]
      exact .of_high finite ceil half tie
  · rcases rounded with ⟨down, _⟩ | ⟨up, _⟩
    · rw [down, Nat.min_eq_left above]
      exact overflow above
    · rw [up, Nat.min_eq_left (Nat.le_succ_of_le above)]
      exact overflow above

end Quotients

/-- Reading a decimal gives the number nearest to it, ties to even. -/
theorem ofDecimal_nearestEven (digits : Nat) (exponent : Int) :
    (ofDecimal digits exponent).NearestEven (digits * 10 ^ exponent) := by
  have quotient : (digits * 10 ^ exponent : ℚ) =
      (digits * 10 ^ exponent.toNat : Nat) / (10 ^ (-exponent).toNat : Nat) := by
    obtain ⟨places, rfl | rfl⟩ := exponent.eq_nat_or_neg
    · simp
    · simp [div_eq_mul_inv]
  rw [quotient]
  exact nearestMagnitude_nearestEven _ (Nat.pow_pos (by decide))

theorem nearestEven_iff {x : Binary64} {digits : Nat} {exponent : Int} :
    x.NearestEven (digits * 10 ^ exponent) ↔ x = ofDecimal digits exponent :=
  ⟨fun nearest => nearest.unique (ofDecimal_nearestEven digits exponent),
    fun same => same ▸ ofDecimal_nearestEven digits exponent⟩

-- Half way between two numbers, `2 ^ 53 + 1` goes to the even one.
example : ofDecimal 9007199254740993 0 = ofDecimal 9007199254740992 0 := by decide +kernel

theorem nearestEven_div_iff {x : Binary64} {digits places : Nat} :
    x.NearestEven (digits / 10 ^ places) ↔ x = ofDecimal digits (-(places : Int)) := by
  rw [← nearestEven_iff, zpow_neg, zpow_natCast, div_eq_mul_inv]

section Overflow

theorem value_significand {places significand : Nat} (carry : significand ≤ 2 * fractionCount)
    (leading : fractionCount ≤ significand) :
    value ((unitPlace + places) * fractionCount + significand) = significand * 2 ^ places := by
  rw [value, units_significand carry (.inr leading), unitsPerOne_eq,
    div_eq_iff (Nat.cast_ne_zero.mpr (Nat.ne_of_gt (Nat.two_pow_pos unitPlace))), Nat.pow_add]
  push_cast
  ring

theorem value_infinite : value infinite = 2 ^ 1024 := by
  have place : infinite = (unitPlace + 972) * fractionCount + fractionCount := by decide
  have digits : (fractionCount : ℚ) = 2 ^ 52 := by norm_num [fractionCount_eq]
  rw [place, value_significand (by decide) (Nat.le_refl _), digits, ← pow_add]

theorem value_pred_infinite : value (infinite - 1) = 2 ^ 1024 - 2 ^ 971 := by
  have place : infinite - 1 = (unitPlace + 971) * fractionCount + (2 * fractionCount - 1) := by
    decide
  have digits : ((2 * fractionCount - 1 : Nat) : ℚ) = 2 ^ 53 - 1 := by norm_num [fractionCount_eq]
  rw [place, value_significand (by decide) (by decide), digits, sub_mul, ← pow_add, one_mul]

/-- A number is infinite from half way between the greatest finite value and `2 ^ 1024` on. -/
theorem NearestEven.isInfinite_iff {x : Binary64} {exact : ℚ} (nearest : x.NearestEven exact) :
    x.isInfinite ↔ 2 ^ 1024 - 2 ^ 970 ≤ exact := by
  have last := value_strictMono (show infinite - 1 < infinite by decide)
  have half : value (infinite - 1) + value infinite = 2 * (2 ^ 1024 - 2 ^ 970) := by
    rw [value_infinite, value_pred_infinite, pow_succ' 2 970, sub_add_eq_add_sub, ← two_mul,
      ← mul_sub]
  have midpoint : 2 ^ 1024 - 2 ^ 970 ≤ exact ↔
      value (infinite - 1) + value infinite ≤ 2 * exact := by
    rw [half]
    exact (mul_le_mul_iff_right₀ two_pos).symm
  rw [isInfinite, decide_eq_true_iff, midpoint]
  constructor
  · intro overflow
    have nearer := nearest.nearest (infinite - 1) (Nat.sub_le _ _)
    rw [overflow] at nearer
    exact (high_nearer_iff last).mp nearer
  · intro above
    by_contra finite
    have less : x.magnitude < infinite := Nat.lt_of_le_of_ne nearest.magnitude_le finite
    have nearer := nearest.nearest infinite (Nat.le_refl _)
    have midpoint := (low_nearer_iff (value_strictMono less)).mp nearer
    -- Only the greatest finite number comes as near, and its bit pattern is odd.
    have greatest : infinite - 1 ≤ x.magnitude := by
      rw [← value_strictMono.le_iff_le]
      linarith
    obtain same : x.magnitude = infinite - 1 := by omega
    rw [same] at nearer
    have tie := le_antisymm nearer ((high_nearer_iff last).mpr above)
    have even := (nearest.even infinite (Nat.le_refl _) (same ▸ tie)).resolve_left (Ne.symm finite)
    rw [same] at even
    exact absurd even (by decide)

end Overflow

end ScriptFront.Binary64
