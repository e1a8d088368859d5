import ScriptFront.Binary64.Basic

/-! The shortest decimal of a positive finite magnitude: the fewest significant
digits that read back as the same number, and of those the nearest to it. Each
candidate is tested by reading it, so what is chosen always reads back. -/
namespace ScriptFront.Binary64

/-- A decimal `digits * 10 ^ exponent`. -/
structure Decimal where
  digits : Nat
  exponent : Int
  deriving DecidableEq

namespace Decimal

def magnitude (d : Decimal) : Nat := (ofDecimal d.digits d.exponent).magnitude

end Decimal

/-- Every positive value is at least four times `10 ^ -324`, so counting digits
from that place finds its leading one. -/
def lowestPlace : Nat := 324

/-- The power of ten just above the leading digit of a value. -/
def leadingPlace (units : Nat) : Int :=
  ((Nat.toDigits 10 (units * Nat.pow 10 lowestPlace / unitsPerOne)).length : Int) - lowestPlace

/-- Of two decimals the one that reads back as the magnitude; if both do, the low one
where it is nearer and the high one elsewhere. -/
def readBack? (magnitude : Nat) (low high : Decimal) (lowNearer : Bool) : Option Decimal :=
  if low.magnitude = magnitude then
    if high.magnitude = magnitude then some (if lowNearer then low else high) else some low
  else
    if high.magnitude = magnitude then some high else none

/-- The decimal with the given number of significant digits that reads back as
the magnitude. The two neighbours of the value on that decimal grid are tried; an
exact tie goes to the larger. -/
def withDigits? (magnitude count : Nat) : Option Decimal :=
  let value := units magnitude
  let exponent := leadingPlace value - count
  let num := value * Nat.pow 10 (-exponent).toNat
  let den := unitsPerOne * Nat.pow 10 exponent.toNat
  readBack? magnitude ⟨num / den, exponent⟩ ⟨num / den + 1, exponent⟩
    (decide (2 * (num % den) < den))

/-- The value written out in full: with `n` places to a unit, that is `5 ^ n * 10 ^ -n`. -/
def exactDecimal (magnitude : Nat) : Decimal :=
  ⟨units magnitude * Nat.pow 5 unitPlace, -(unitPlace : Int)⟩

def shortest (magnitude : Nat) : Decimal :=
  ((List.range' 1 17).findSome? (withDigits? magnitude)).getD (exactDecimal magnitude)

end ScriptFront.Binary64
