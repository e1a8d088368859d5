/-! Binary64 numbers as bit patterns. The magnitude of a number is its pattern
without the sign; finite magnitudes are in order with the values they stand for,
and every finite value is a whole number of units of `2 ^ -1074`. Rounding works
in those units, so it needs no case for subnormal or carried results. -/
namespace ScriptFront

/-- A number in the IEEE 754 binary64 format, kept bit for bit. -/
structure Binary64 where
  bits : UInt64
  deriving DecidableEq, Inhabited

namespace Binary64

/-- The weight `2 ^ 63` of the sign bit. -/
def signPlace : Nat := Nat.pow 2 63

/-- The number `2 ^ 52` of fractions to an exponent. -/
def fractionCount : Nat := Nat.pow 2 52

/-- The magnitude of the infinities: exponent field 2047, fraction 0. -/
def infinite : Nat := 2047 * fractionCount

/-- The unit is `2 ^ -1074`, the least positive value. -/
def unitPlace : Nat := 1074

def unitsPerOne : Nat := Nat.pow 2 unitPlace

def magnitude (x : Binary64) : Nat := x.bits.toNat % signPlace

def isNegative (x : Binary64) : Bool := decide (signPlace ≤ x.bits.toNat)

def isNaN (x : Binary64) : Bool := decide (infinite < x.magnitude)

def isInfinite (x : Binary64) : Bool := decide (x.magnitude = infinite)

/-- The value of a finite magnitude, in units. -/
def units (magnitude : Nat) : Nat :=
  if magnitude < fractionCount then magnitude
  else (fractionCount + magnitude % fractionCount) * Nat.pow 2 (magnitude / fractionCount - 1)

/-- Comparison by value: a NaN equals nothing, and the two zeros are equal. -/
def equals (x y : Binary64) : Bool :=
  !x.isNaN && !y.isNaN &&
    (decide (x.bits = y.bits) || (decide (x.magnitude = 0) && decide (y.magnitude = 0)))

/-- The quotient rounded to nearest, a half to the even neighbour. -/
def roundHalfEven (num den : Nat) : Nat :=
  let low := num / den
  let twice := 2 * (num % den)
  if twice < den ∨ (twice = den ∧ low % 2 = 0) then low else low + 1

/-- The magnitude nearest to `num / den`, ties to even. A result above the
finite ones is the infinite magnitude. -/
def nearestMagnitude (num den : Nat) : Nat :=
  let scaled := num * unitsPerOne
  let shift := (scaled / den).log2 - 52
  min infinite (shift * fractionCount + roundHalfEven scaled (den * Nat.pow 2 shift))

def ofMagnitude (magnitude : Nat) : Binary64 := ⟨UInt64.ofNat magnitude⟩

/-- The nonnegative number nearest to `digits * 10 ^ exponent`, ties to even, as
`ofDecimal_nearestEven` states. -/
def ofDecimal (digits : Nat) (exponent : Int) : Binary64 :=
  ofMagnitude
    (nearestMagnitude (digits * Nat.pow 10 exponent.toNat) (Nat.pow 10 (-exponent).toNat))

end Binary64
end ScriptFront
