/-! Binary floating point numbers of 64 bits as exact data. Every finite one is a whole number of units of 2⁻¹⁰⁷⁴,
so comparing two of them, or one with an integer, is arithmetic on whole numbers and rounds nothing. -/

namespace Stencil.Number

inductive Binary64 where
  | finite (negative : Bool) (units : Nat)
  | infinite (negative : Bool)
  /-- The label tells one undefined number from another where a collection asks which element it holds. -/
  | undefined (label : Nat)
  deriving DecidableEq, Repr

def unitsPerOne : Nat := Nat.pow 2 1074

def unitsBeyond : Nat := Nat.pow 2 2098

/-- The quotient rounded to a whole number, a half going to the even neighbour. -/
def roundHalfEven (numerator denominator : Nat) : Nat :=
  let whole := numerator / denominator
  let twice := 2 * (numerator % denominator)
  if twice < denominator then whole else if denominator < twice then whole + 1 else whole + whole % 2

namespace Binary64

/-- The distance between neighbours around a number of this many units: 53 binary digits are kept, and no distance
is below one unit. -/
def spacing (units : Nat) : Nat := Nat.pow 2 (units.log2 - 52)

def nearest (negative : Bool) (numerator denominator : Nat) : Binary64 :=
  let scaled := numerator * unitsPerOne
  let step := spacing (scaled / denominator)
  let units := roundHalfEven scaled (denominator * step) * step
  if units < unitsBeyond then .finite negative units else .infinite negative

/-- The number nearest to `mantissa * 10 ^ exponent`. Exponents far outside the range are settled without forming
the power. -/
def ofDecimal (negative : Bool) (mantissa : Nat) (exponent : Int) : Binary64 :=
  if mantissa = 0 || exponent + mantissa.log2 < -400 then .finite negative 0
  else if 400 < exponent then .infinite negative
  else match exponent with
    | .ofNat places => nearest negative (mantissa * Nat.pow 10 places) 1
    | .negSucc places => nearest negative mantissa (Nat.pow 10 (places + 1))

/-- The value in units, in which both zeros are zero. -/
def toUnits? : Binary64 → Option Int
  | .finite negative units => some (if negative then -units else units)
  | .infinite _ | .undefined _ => none

/-- Numeric equality: the zeros are equal and an undefined number equals nothing. -/
def equals : Binary64 → Binary64 → Bool
  | .infinite left, .infinite right => left = right
  | left, right => left.toUnits?.isSome && left.toUnits? = right.toUnits?

def equalsInt (number : Binary64) (integer : Int) : Bool := number.toUnits? = some (integer * unitsPerOne)

def isZero (number : Binary64) : Bool := number.toUnits? = some 0

end Stencil.Number.Binary64
