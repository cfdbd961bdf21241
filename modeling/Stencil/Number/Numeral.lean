import Stencil.Number.Binary64
import Stencil.Text.Blank
import Stencil.Text.Digit

/-! Numerals: a sign, digits with a point among them, an exponent. The digits may be those of any script, a low line
may stand between two of them, and white space around the numeral is passed over. -/

namespace Stencil.Number
open Text

def isPlainDigit (c : Char) : Bool := '0' ≤ c && c ≤ '9'

/-- A decimal digit as the first ten characters write it, and white space beyond the first 128 as a space. -/
def plainForm (c : Char) : Char :=
  if c.toNat < 128 then c
  else if isBlank c then ' '
  else match decimalValue? c with
    | some value => Nat.digitChar value
    | none => c

def isMargin (c : Char) : Bool := c = ' ' || ('\t' ≤ c && c ≤ '\r')

def withoutMargins (chars : List Char) : List Char :=
  ((chars.dropWhile isMargin).reverse.dropWhile isMargin).reverse

/-- Leaves out the low lines, each of which needs a digit on both sides. -/
def withoutLowLines? (previous : Char) : List Char → Option (List Char)
  | [] => some []
  | '_' :: rest =>
    if isPlainDigit previous && rest.head?.any isPlainDigit then withoutLowLines? '_' rest else none
  | c :: rest => (withoutLowLines? c rest).map (c :: ·)

def digitsValue (digits : List Char) : Nat := digits.foldl (fun value c => 10 * value + (c.toNat - 48)) 0

def splitSign : List Char → Bool × List Char
  | '-' :: rest => (true, rest)
  | '+' :: rest => (false, rest)
  | chars => (false, chars)

def exponent? : List Char → Option Int
  | [] => some 0
  | mark :: rest =>
    let (negative, digits) := splitSign rest
    if mark.toLower = 'e' && !digits.isEmpty && digits.all isPlainDigit then
      some (if negative then -digitsValue digits else digitsValue digits)
    else none

def unsigned? (negative : Bool) (chars : List Char) : Option Binary64 :=
  let word := String.ofList (chars.map Char.toLower)
  if word = "inf" || word = "infinity" then some (.infinite negative)
  else if word = "nan" then some (.undefined 0)
  else
    let (whole, rest) := chars.span isPlainDigit
    let (places, rest) := match rest with
      | '.' :: rest => rest.span isPlainDigit
      | rest => ([], rest)
    if (whole ++ places).isEmpty then none
    else (exponent? rest).map fun exponent =>
      .ofDecimal negative (digitsValue (whole ++ places)) (exponent - places.length)

def numeral? (text : String) : Option Binary64 := do
  let plain ← withoutLowLines? ' ' (withoutMargins (text.toList.map plainForm))
  let (negative, rest) := splitSign plain
  unsigned? negative rest

end Stencil.Number
