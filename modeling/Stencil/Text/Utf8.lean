import Stencil.Text.CodePoint

/-! Text from its bytes. The first byte of a character says how many bytes follow and narrows the range of the second,
so that no character has two forms and none is a surrogate. So a text with a surrogate has no bytes either. -/

namespace Stencil.Text.Utf8

inductive Reason where
  | invalidStart
  | invalidContinuation
  | unexpectedEnd
  deriving DecidableEq, Repr

/-- The bytes that are no character: where they start, the first of them, and how many they are. -/
structure Fault where
  reason : Reason
  position : Nat
  byte : UInt8
  length : Nat
  deriving DecidableEq, Repr

def Reason.message : Reason → String
  | .invalidStart => "invalid start byte"
  | .invalidContinuation => "invalid continuation byte"
  | .unexpectedEnd => "unexpected end of data"

def Fault.message (fault : Fault) : String :=
  let place :=
    if fault.length = 1 then
      let digits := [Nat.digitChar (fault.byte.toNat / 16), Nat.digitChar (fault.byte.toNat % 16)]
      "byte 0x" ++ String.ofList digits ++ " in position " ++ toString fault.position
    else
      "bytes in position " ++ toString fault.position ++ "-" ++ toString (fault.position + fault.length - 1)
  "'utf-8' codec can't decode " ++ place ++ ": " ++ fault.reason.message

structure Pending where
  position : Nat
  byte : UInt8
  length : Nat
  /-- How many bytes are missing, and the range of the next one. -/
  missing : Nat
  low : Nat
  high : Nat
  value : Nat

def begin? (position : Nat) (byte : UInt8) : Option Pending :=
  let value := byte.toNat
  let pending (missing low high bits : Nat) : Option Pending := some ⟨position, byte, 1, missing, low, high, bits⟩
  if value < 0xC2 then none
  else if value < 0xE0 then pending 1 0x80 0xBF (value - 0xC0)
  else if value = 0xE0 then pending 2 0xA0 0xBF 0
  else if value = 0xED then pending 2 0x80 0x9F 0xD
  else if value < 0xF0 then pending 2 0x80 0xBF (value - 0xE0)
  else if value = 0xF0 then pending 3 0x90 0xBF 0
  else if value < 0xF4 then pending 3 0x80 0xBF (value - 0xF0)
  else if value = 0xF4 then pending 3 0x80 0x8F 4
  else none

def Pending.fault (pending : Pending) (reason : Reason) : Fault :=
  ⟨reason, pending.position, pending.byte, pending.length⟩

def decodeFrom (position : Nat) : Option Pending → List UInt8 → Except Fault (List Char)
  | none, [] => .ok []
  | some pending, [] => .error (pending.fault .unexpectedEnd)
  | none, byte :: rest =>
    if byte.toNat < 0x80 then do return Char.ofNat byte.toNat :: (← decodeFrom (position + 1) none rest)
    else match begin? position byte with
      | none => .error ⟨.invalidStart, position, byte, 1⟩
      | some pending => decodeFrom (position + 1) (some pending) rest
  | some pending, byte :: rest =>
    if pending.low ≤ byte.toNat && byte.toNat ≤ pending.high then
      let value := 64 * pending.value + (byte.toNat - 0x80)
      if pending.missing = 1 then do return Char.ofNat value :: (← decodeFrom (position + 1) none rest)
      else
        decodeFrom (position + 1)
          (some ⟨pending.position, pending.byte, pending.length + 1, pending.missing - 1, 0x80, 0xBF, value⟩) rest
    else .error (pending.fault .invalidContinuation)

def decode (bytes : List UInt8) : Except Fault (List Char) := decodeFrom 0 none bytes

/-- One line break for each of the three ways to write it. -/
def unifyLines : List Char → List Char
  | [] => []
  | '\r' :: '\n' :: rest => '\n' :: unifyLines rest
  | '\r' :: rest => '\n' :: unifyLines rest
  | c :: rest => c :: unifyLines rest

/-- Surrogates in a row: where they start, the first of them, and how many they are. -/
structure Unencodable where
  position : Nat
  first : Fin 0x800
  length : Nat
  deriving DecidableEq, Repr

def Unencodable.message (fault : Unencodable) : String :=
  let place :=
    if fault.length = 1 then
      "character '\\u" ++ String.ofList (Nat.toDigits 16 (CodePoint.surrogate fault.first).number) ++ "' in position " ++
        toString fault.position
    else
      "characters in position " ++ toString fault.position ++ "-" ++ toString (fault.position + fault.length - 1)
  "'utf-8' codec can't encode " ++ place ++ ": surrogates not allowed"

def charsFrom (position : Nat) : List CodePoint → Except Unencodable (List Char)
  | [] => .ok []
  | .char c :: rest => do return c :: (← charsFrom (position + 1) rest)
  | .surrogate first :: rest => .error ⟨position, first, (rest.takeWhile CodePoint.isSurrogate).length + 1⟩

/-- A text as one that has bytes: it must have characters only. -/
def encode (content : List CodePoint) : Except Unencodable String := do return String.ofList (← charsFrom 0 content)

private theorem charsFrom_map (position : Nat) (chars : List Char) : charsFrom position (chars.map .char) = .ok chars := by
  induction chars generalizing position with
  | nil => rfl
  | cons c chars ih =>
    rw [List.map_cons, charsFrom, ih]
    rfl

private theorem eq_map_of_charsFrom {position : Nat} {content : List CodePoint} {chars : List Char}
    (done : charsFrom position content = .ok chars) : content = chars.map .char := by
  induction content generalizing position chars with
  | nil =>
    cases done
    rfl
  | cons point rest ih =>
    cases point with
    | surrogate first => cases done
    | char c =>
      simp only [charsFrom, bind, Except.bind] at done
      split at done
      · cases done
      next more =>
        cases done
        rw [ih more, List.map_cons]

theorem encode_ok_iff {content : List CodePoint} {text : String} : encode content = .ok text ↔ content = points text := by
  constructor
  · intro done
    simp only [encode, bind, Except.bind] at done
    split at done
    · cases done
    next found =>
      cases done
      rw [points, String.toList_ofList]
      exact eq_map_of_charsFrom found
  · rintro rfl
    rw [encode, points, charsFrom_map]
    exact congrArg Except.ok String.ofList_toList

end Stencil.Text.Utf8
