import Stencil.Text.CodePoint
import Stencil.Text.Printable

/-! Quoted text: single quotes, unless the text holds a single quote and no double one. A backslash stands before the
quote in use and before itself, and whatever cannot be printed is written as an escape. -/

namespace Stencil.Text

/-- A number in lower case hexadecimal, filled with zeros up to a width. -/
def hexadecimal (width value : Nat) : List Char :=
  let digits := Nat.toDigits 16 value
  List.replicate (width - digits.length) '0' ++ digits

def quoteFor (content : List CodePoint) : Char := if .char '\'' ∈ content ∧ .char '"' ∉ content then '"' else '\''

/-- The escape of a code point by its number, in the narrowest of three widths. -/
def codeEscape (number : Nat) : List Char :=
  if number < 0x100 then '\\' :: 'x' :: hexadecimal 2 number
  else if number < 0x10000 then '\\' :: 'u' :: hexadecimal 4 number
  else '\\' :: 'U' :: hexadecimal 8 number

/-- A code point between quotes, where `visible` says which characters stand for themselves. -/
def escape (visible : Char → Bool) (quote : Char) : CodePoint → List Char
  | .char c =>
    if c = quote || c = '\\' then ['\\', c]
    else if c = '\t' then ['\\', 't']
    else if c = '\n' then ['\\', 'n']
    else if c = '\r' then ['\\', 'r']
    else if visible c then [c]
    else codeEscape c.toNat
  | half => codeEscape half.number

def quotedBy (visible : Char → Bool) (content : List CodePoint) : List Char :=
  let quote := quoteFor content
  quote :: (content.flatMap (escape visible quote) ++ [quote])

def quotedPoints (content : List CodePoint) : String := String.ofList (quotedBy isPrintable content)

def quoted (text : String) : String := quotedPoints text

/-- Bytes read as the characters of the same numbers, of which only the plain printable ones stand for themselves. -/
def quotedBytes (bytes : List UInt8) : String :=
  String.ofList ('b' :: quotedBy (fun c => ' ' ≤ c && c ≤ '~') (bytes.map fun byte => .char (Char.ofNat byte.toNat)))

end Stencil.Text
