import ScriptFront.Binary64.Shortest

/-! The text of a binary64 number: its shortest decimal, positional from
`0.0001` up to below `10 ^ 16` and scientific elsewhere. Positional text always
has a fractional digit, scientific text has one only where it is needed, and an
exponent carries no plus sign. -/
namespace ScriptFront.Binary64

def dropTrailingZeros (digits : List Char) : List Char :=
  (digits.reverse.dropWhile (· == '0')).reverse

/-- Text of `d.ddd * 10 ^ exponent`, the digits given without the point. -/
def scientific (digits : List Char) (exponent : Int) : List Char :=
  let fraction := digits.drop 1
  digits.take 1 ++ (if fraction.isEmpty then [] else '.' :: fraction) ++
    'e' :: (toString exponent).toList

def positional (digits : List Char) (exponent : Int) : List Char :=
  if exponent < 0 then
    '0' :: '.' :: List.replicate (-exponent - 1).toNat '0' ++ digits
  else
    let whole := exponent.toNat + 1
    let fraction := digits.drop whole
    digits.take whole ++ List.replicate (whole - digits.length) '0' ++
      '.' :: (if fraction.isEmpty then ['0'] else fraction)

def isPositional (exponent : Int) : Bool := decide (-4 ≤ exponent ∧ exponent < 16)

/-- Text of a positive decimal. -/
def Decimal.render (d : Decimal) : List Char :=
  let digits := Nat.toDigits 10 d.digits
  let exponent := d.exponent + digits.length - 1
  let significant := dropTrailingZeros digits
  if isPositional exponent then positional significant exponent
  else scientific significant exponent

def renderMagnitude (magnitude : Nat) : List Char :=
  if magnitude = 0 then ['0', '.', '0']
  else if magnitude = infinite then ['i', 'n', 'f']
  else (shortest magnitude).render

def render (x : Binary64) : String :=
  if x.isNaN then "NaN"
  else String.ofList ((if x.isNegative then ['-'] else []) ++ renderMagnitude x.magnitude)

end ScriptFront.Binary64
