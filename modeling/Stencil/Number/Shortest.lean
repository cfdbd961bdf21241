import Stencil.Number.Binary64

/-! The text of a floating point number: the fewest decimal digits that read back as the same number and, among those,
the nearest. It is positional from 10⁻⁴ up to 10¹⁶ and has an exponent of two digits or more outside. -/

namespace Stencil.Number

/-- `digits * 10 ^ exponent`. -/
structure Decimal where
  digits : Nat
  exponent : Int
  deriving DecidableEq, Repr

namespace Decimal

def trim (number : Decimal) : Decimal :=
  if 0 < number.digits ∧ number.digits % 10 = 0 then trim ⟨number.digits / 10, number.exponent + 1⟩ else number
termination_by number.digits
decreasing_by omega

def zeros (count : Nat) : List Char := List.replicate count '0'

def positional (digits : List Char) (point : Int) : List Char :=
  if point ≤ 0 then '0' :: '.' :: (zeros point.natAbs ++ digits)
  else if point < digits.length then digits.take point.toNat ++ '.' :: digits.drop point.toNat
  else digits ++ zeros (point.toNat - digits.length) ++ ['.', '0']

def scientific (digits : List Char) (exponent : Int) : List Char :=
  let size := Nat.toDigits 10 exponent.natAbs
  digits.take 1 ++ (if digits.length ≤ 1 then [] else '.' :: digits.drop 1) ++
    'e' :: (if exponent < 0 then '-' else '+') :: (zeros (2 - size.length) ++ size)

/-- The point stands after so many digits as the number has before it, counted from the first digit. -/
def text (number : Decimal) : List Char :=
  let digits := Nat.toDigits 10 number.digits
  let point := number.exponent + digits.length
  if -4 < point ∧ point ≤ 16 then positional digits point else scientific digits (point - 1)

end Decimal

namespace Binary64

/-- Four times the distance from a number to the lower end of the interval that rounds to it. Below a power of two
the neighbours stand twice as close. -/
def lowerGap (units : Nat) : Nat :=
  let spacing := spacing units
  if units = Nat.pow 2 52 * spacing ∧ 1 < spacing then spacing else 2 * spacing

def upperGap (units : Nat) : Nat := 2 * spacing units

def grainsPerUnit : Nat := Nat.pow 5 1074

/-- Whether `count` steps of a decimal grid round to the number. Grid and number are measured in quarters of
10⁻¹⁰⁷⁴, in which both are whole. The ends of the interval belong to an even mantissa. -/
def roundsTo (units : Nat) (step count : Nat) : Bool :=
  let low := (4 * units - lowerGap units) * grainsPerUnit
  let high := (4 * units + upperGap units) * grainsPerUnit
  let point := 4 * (count * step)
  if units / spacing units % 2 = 0 then low ≤ point && point ≤ high else low < point && point < high

/-- The multiple of the step that rounds to the number, the nearer of two and the even one of two as near. -/
def onGrid? (units step : Nat) : Option Nat :=
  let exact := units * grainsPerUnit
  let below := exact / step
  match roundsTo units step below, roundsTo units step (below + 1) with
  | true, true =>
    let twice := 2 * (exact % step)
    some (if twice < step then below else if step < twice then below + 1 else below + below % 2)
  | true, false => some below
  | false, true => some (below + 1)
  | false, false => none

/-- The shortest decimal of a positive number. Seventeen digits always suffice. -/
def shortest (units : Nat) : Decimal :=
  let exact := units * grainsPerUnit
  let length := (Nat.toDigits 10 exact).length
  let found := (List.range 17).findSome? fun used =>
    let places := length - (used + 1)
    (onGrid? units (Nat.pow 10 places)).map fun count => (⟨count, (length : Int) - (used + 1) - 1074⟩ : Decimal)
  (found.getD ⟨exact, -1074⟩).trim

def text : Binary64 → String
  | .finite negative units =>
    String.ofList ((if negative then ['-'] else []) ++ if units = 0 then ['0', '.', '0'] else (shortest units).text)
  | .infinite negative => if negative then "-inf" else "inf"
  | .undefined _ => "nan"

end Stencil.Number.Binary64
