import Stencil.Number.Numeral
import Stencil.Text.CodePoint
import Stencil.Value.Basic

/-! The parts of JSON that hold no other parts: strings, numbers and words. A fault is known by what is left of the text
where it shows. -/

namespace Stencil.Json
open Number Text

inductive Expected where
  | value
  | propertyName
  | colon
  | comma
  | nothingMore
  | noMark
  | closedString
  | printable
  | escape
  | unicodeEscape
  deriving DecidableEq, Repr

inductive Fault where
  /-- The text breaks the grammar; what is left of it starts where it does so. -/
  | broken (expected : Expected) (rest : List Char)
  | tooLong (digits : Nat)
  deriving DecidableEq, Repr

def digitLimit : Nat := 4300

def isSpace (c : Char) : Bool := c = ' ' || c = '\t' || c = '\n' || c = '\r'

def skipSpaces (text : List Char) : List Char := text.dropWhile isSpace

def hexValue? (c : Char) : Option Nat :=
  if '0' ≤ c && c ≤ '9' then some (c.toNat - 48)
  else if 'a' ≤ c && c ≤ 'f' then some (c.toNat - 87)
  else if 'A' ≤ c && c ≤ 'F' then some (c.toNat - 55)
  else none

def unit? (a b c d : Char) : Option Nat := do
  return ((← hexValue? a) * 16 + (← hexValue? b)) * 256 + (← hexValue? c) * 16 + (← hexValue? d)

def isHighSurrogate (unit : Nat) : Bool := 0xD800 ≤ unit && unit < 0xDC00

def isLowSurrogate (unit : Nat) : Bool := 0xDC00 ≤ unit && unit < 0xE000

/-- A code unit by itself. Half a pair stays what it is. -/
def unitPoint (unit : Nat) : CodePoint :=
  if _half : 0xD800 ≤ unit ∧ unit < 0xE000 then .surrogate ⟨unit - 0xD800, by omega⟩ else .char (Char.ofNat unit)

def simpleEscape? : Char → Option Char
  | '"' => some '"'
  | '\\' => some '\\'
  | '/' => some '/'
  | 'b' => some '\x08'
  | 'f' => some '\x0c'
  | 'n' => some '\n'
  | 'r' => some '\r'
  | 't' => some '\t'
  | _ => none

/-- A code unit in four digits with something after them. The text is at hand from the mark before the digits on. -/
def readUnit (marked : List Char) : List Char → Except Fault Nat
  | a :: b :: c :: d :: _ :: _ =>
    match unit? a b c d with
    | some unit => .ok unit
    | none => .error (.broken .unicodeEscape marked)
  | _ => .error (.broken .unicodeEscape marked)

/-- The second half of a pair, where a whole escape follows at once. -/
def readLowHalf : List Char → Except Fault (Option Nat)
  | '\\' :: 'u' :: digits =>
    if digits.length < 5 then .ok none
    else do
      let unit ← readUnit ('u' :: digits) digits
      return if isLowSurrogate unit then some unit else none
  | _ => .ok none

/-- What an escape by code units stands for, and how long the escape is after its mark. -/
def readUnits (text : List Char) : Except Fault (CodePoint × Nat) := do
  let high ← readUnit ('u' :: text) text
  if isHighSurrogate high then
    match ← readLowHalf (text.drop 4) with
    | some low => return (.char (Char.ofNat (0x10000 + (high - 0xD800) * 0x400 + (low - 0xDC00))), 10)
    | none => return (unitPoint high, 4)
  else return (unitPoint high, 4)

/-- A string after its opening quote, up to the closing one. The text from the opening quote on is at hand for a string
that does not end. -/
def readString (opening : List Char) : List Char → Except Fault (List CodePoint × List Char)
  | [] => .error (.broken .closedString opening)
  | '"' :: rest => .ok ([], rest)
  | '\\' :: rest =>
    match rest with
    | [] => .error (.broken .closedString opening)
    | 'u' :: text => do
      let (meant, length) ← readUnits text
      let (content, rest) ← readString opening (text.drop length)
      return (meant :: content, rest)
    | c :: text =>
      match simpleEscape? c with
      | none => .error (.broken .escape ('\\' :: rest))
      | some meant => do
        let (content, rest) ← readString opening text
        return (.char meant :: content, rest)
  | c :: rest =>
    if c.toNat < 0x20 then .error (.broken .printable (c :: rest))
    else do
      let (content, rest) ← readString opening rest
      return (.char c :: content, rest)
termination_by text => text.length

theorem readString_shorter {opening text rest : List Char} {content : List CodePoint}
    (done : readString opening text = .ok (content, rest)) : rest.length < text.length := by
  fun_induction readString opening text generalizing content rest with
  | case1 => cases done
  | case2 text => cases done; simp
  | case3 => cases done
  | case4 text ih =>
    simp only [bind, Except.bind] at done
    split at done
    · cases done
    next used _ =>
      split at done
      · cases done
      next result found =>
        cases done
        have shorter := ih used.2 found
        simp only [List.length_drop] at shorter
        simp only [List.length_cons]
        omega
  | case5 => cases done
  | case6 c text _ meant _ ih =>
    simp only [bind, Except.bind] at done
    split at done
    · cases done
    next found =>
      cases done
      have shorter := ih found
      simp only [List.length_cons]
      omega
  | case7 => cases done
  | case8 c text _ _ _ ih =>
    simp only [bind, Except.bind] at done
    split at done
    · cases done
    next found =>
      cases done
      have shorter := ih found
      simp only [List.length_cons]
      omega

/-- The digits of a number's whole part: a zero stands alone. -/
def wholeDigits : List Char → List Char
  | '0' :: _ => ['0']
  | text => text.takeWhile isPlainDigit

def fractionPart : List Char → List Char
  | '.' :: rest =>
    let digits := rest.takeWhile isPlainDigit
    if digits.isEmpty then [] else '.' :: digits
  | _ => []

/-- The mark of an exponent with digits after it, and a sign between them perhaps. -/
def exponentPart : List Char → List Char
  | mark :: rest =>
    if mark = 'e' || mark = 'E' then
      let sign := match rest with
        | '-' :: _ => ['-']
        | '+' :: _ => ['+']
        | _ => []
      let digits := (rest.drop sign.length).takeWhile isPlainDigit
      if digits.isEmpty then [] else mark :: sign ++ digits
    else []
  | [] => []

def splitMinus : List Char → Bool × List Char
  | '-' :: rest => (true, rest)
  | rest => (false, rest)

/-- The longest number at the head of the text. With a fraction or an exponent it is a floating point number. -/
def readNumber (text : List Char) : Except Fault (Value × List Char) :=
  let (negative, unsigned) := splitMinus text
  let whole := wholeDigits unsigned
  let fraction := fractionPart (unsigned.drop whole.length)
  let exponent := exponentPart (unsigned.drop (whole.length + fraction.length))
  let rest := unsigned.drop (whole.length + fraction.length + exponent.length)
  if whole.isEmpty then .error (.broken .value text)
  else if fraction.isEmpty && exponent.isEmpty then
    if digitLimit < whole.length then .error (.tooLong whole.length)
    else .ok (.int (if negative then -digitsValue whole else digitsValue whole), rest)
  else match unsigned? negative (whole ++ fraction ++ exponent) with
    | some number => .ok (.float number, rest)
    | none => .error (.broken .value text)

private theorem splitMinus_length_le (text : List Char) : (splitMinus text).2.length ≤ text.length := by
  unfold splitMinus
  split <;> simp

private theorem drop_wholeDigits_shorter {text : List Char} (some : (wholeDigits text).isEmpty = false) (more : Nat) :
    (text.drop ((wholeDigits text).length + more)).length < text.length := by
  cases text with
  | nil => simp [wholeDigits] at some
  | cons c rest =>
    have long : 0 < (wholeDigits (c :: rest)).length := by
      cases digits : wholeDigits (c :: rest) with
      | nil => simp [digits] at some
      | cons _ _ => simp
    simp only [List.length_drop, List.length_cons]
    omega

theorem readNumber_shorter {text rest : List Char} {value : Value} (done : readNumber text = .ok (value, rest)) :
    rest.length < text.length := by
  have signed := splitMinus_length_le text
  simp only [readNumber] at done
  split at done
  · cases done
  next some =>
    have shorter := drop_wholeDigits_shorter (Bool.eq_false_iff.mpr some)
    have kept : rest = (splitMinus text).2.drop ((wholeDigits (splitMinus text).2).length +
        (fractionPart ((splitMinus text).2.drop (wholeDigits (splitMinus text).2).length)).length +
        (exponentPart ((splitMinus text).2.drop ((wholeDigits (splitMinus text).2).length +
          (fractionPart ((splitMinus text).2.drop (wholeDigits (splitMinus text).2).length)).length))).length) := by
      split at done
      · split at done
        · cases done
        · cases done; rfl
      · split at done
        · cases done; rfl
        · cases done
    rw [kept, Nat.add_assoc]
    exact Nat.lt_of_lt_of_le (shorter _) signed

def words : List (List Char × Value) :=
  [("null".toList, .null), ("true".toList, .bool true), ("false".toList, .bool false),
   ("NaN".toList, .float (.undefined 0)), ("Infinity".toList, .float (.infinite false)),
   ("-Infinity".toList, .float (.infinite true))]

def readPlain (text : List Char) : Except Fault (Value × List Char) :=
  match words.find? fun word => word.1.isPrefixOf text with
  | some (word, value) => .ok (value, text.drop word.length)
  | none => readNumber text

theorem readPlain_shorter {text rest : List Char} {value : Value} (done : readPlain text = .ok (value, rest)) :
    rest.length < text.length := by
  unfold readPlain at done
  split at done
  next word value found =>
    cases done
    have all : ∀ entry ∈ words, 0 < entry.1.length := by decide
    have long : 0 < word.length := all _ (List.mem_of_find?_eq_some found)
    have begins := List.find?_some found
    have fits : word.length ≤ text.length := (List.isPrefixOf_iff_prefix.mp begins).length_le
    simp only [List.length_drop]
    omega
  next => exact readNumber_shorter done

end Stencil.Json
