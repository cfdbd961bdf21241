import Stencil.Json.Scalar
import Stencil.Value.Same

/-! JSON texts as values. Collections that are open wait on a stack until their closing brackets come. A name that comes
twice keeps its first place and its last value. -/

namespace Stencil.Json

/-- A collection that is open, with the items before the one at hand, the nearest first, or with the entries before the
one whose name is at hand. -/
inductive Enclosing where
  | array (items : List Value)
  | object (entries : List (Value × Value)) (name : List Text.CodePoint)

inductive Awaiting where
  | term
  | firstItem
  | firstName
  | name (entries : List (Value × Value))
  /-- What follows a term: a comma, the end of its collection, or nothing more. -/
  | joint (value : Value)

def Awaiting.rank : Awaiting → Nat
  | .term | .joint _ => 0
  | .firstItem | .name _ => 1
  | .firstName => 2

private theorem skipSpaces_length_le (text : List Char) : (skipSpaces text).length ≤ text.length :=
  (List.dropWhile_sublist isSpace).length_le

private theorem length_lt_of_skipSpaces {text rest : List Char} {c : Char} (skipped : skipSpaces text = c :: rest) :
    rest.length < text.length := by
  have shorter := skipSpaces_length_le text
  rw [skipped, List.length_cons] at shorter
  exact shorter

def read (stack : List Enclosing) (awaiting : Awaiting) (text : List Char) : Except Fault (Value × List Char) :=
  match awaiting with
  | .term =>
    match text with
    | '"' :: rest =>
      match _string : readString text rest with
      | .error fault => .error fault
      | .ok (content, after) => read stack (.joint (.text content)) after
    | '[' :: rest => read stack .firstItem rest
    | '{' :: rest => read stack .firstName rest
    | text =>
      match _plain : readPlain text with
      | .error fault => .error fault
      | .ok (value, after) => read stack (.joint value) after
  | .firstItem =>
    match _skipped : skipSpaces text with
    | ']' :: rest => read stack (.joint (.list [])) rest
    | first => read (.array [] :: stack) .term first
  | .firstName =>
    match _skipped : skipSpaces text with
    | '}' :: rest => read stack (.joint (.dict [])) rest
    | first => read stack (.name []) first
  | .name entries =>
    match text with
    | '"' :: rest =>
      match _string : readString text rest with
      | .error fault => .error fault
      | .ok (name, after) =>
        match _skipped : skipSpaces after with
        | ':' :: rest => read (.object entries name :: stack) .term (skipSpaces rest)
        | text => .error (.broken .colon text)
    | _ => .error (.broken .propertyName text)
  | .joint value =>
    match stack with
    | [] => .ok (value, text)
    | .array items :: stack =>
      match _skipped : skipSpaces text with
      | ']' :: rest => read stack (.joint (.list (value :: items).reverse)) rest
      | ',' :: rest => read (.array (value :: items) :: stack) .term (skipSpaces rest)
      | text => .error (.broken .comma text)
    | .object entries name :: stack =>
      let entries := Value.put (.text name) value entries
      match _skipped : skipSpaces text with
      | '}' :: rest => read stack (.joint (.dict entries)) rest
      | ',' :: rest => read stack (.name entries) (skipSpaces rest)
      | text => .error (.broken .comma text)
termination_by 3 * text.length + awaiting.rank
decreasing_by
  · have := readString_shorter _string
    simp only [Awaiting.rank, List.length_cons]
    omega
  · simp only [Awaiting.rank, List.length_cons]
    omega
  · simp only [Awaiting.rank, List.length_cons]
    omega
  · have := readPlain_shorter _plain
    simp only [Awaiting.rank]
    omega
  · have := length_lt_of_skipSpaces _skipped
    simp only [Awaiting.rank]
    omega
  · have := skipSpaces_length_le text
    simp only [Awaiting.rank, ← _skipped]
    omega
  · have := length_lt_of_skipSpaces _skipped
    simp only [Awaiting.rank]
    omega
  · have := skipSpaces_length_le text
    simp only [Awaiting.rank, ← _skipped]
    omega
  · have := readString_shorter _string
    have := length_lt_of_skipSpaces _skipped
    have := skipSpaces_length_le rest
    simp only [Awaiting.rank, List.length_cons]
    omega
  · have := length_lt_of_skipSpaces _skipped
    simp only [Awaiting.rank]
    omega
  · have := length_lt_of_skipSpaces _skipped
    have := skipSpaces_length_le rest
    simp only [Awaiting.rank]
    omega
  · have := length_lt_of_skipSpaces _skipped
    simp only [Awaiting.rank]
    omega
  · have := length_lt_of_skipSpaces _skipped
    have := skipSpaces_length_le rest
    simp only [Awaiting.rank]
    omega

/-- A byte order mark at the head is refused. -/
def parse (text : List Char) : Except Fault Value :=
  if text.head? = some '\uFEFF' then .error (.broken .noMark text)
  else do
    let (value, rest) ← read [] .term (skipSpaces text)
    match skipSpaces rest with
    | [] => return value
    | rest => .error (.broken .nothingMore rest)

def Expected.message : Expected → String
  | .value => "Expecting value"
  | .propertyName => "Expecting property name enclosed in double quotes"
  | .colon => "Expecting ':' delimiter"
  | .comma => "Expecting ',' delimiter"
  | .nothingMore => "Extra data"
  | .noMark => "Unexpected UTF-8 BOM (decode using utf-8-sig)"
  | .closedString => "Unterminated string starting at"
  | .printable => "Invalid control character at"
  | .escape => "Invalid \\escape"
  | .unicodeEscape => "Invalid \\uXXXX escape"

/-- The message for a break in a text, with its line and column, both from one, and its offset, from zero. -/
def brokenMessage (text : List Char) (expected : Expected) (rest : List Char) : String :=
  let before := text.take (text.length - rest.length)
  let line := before.count '\n' + 1
  let column := (before.reverse.takeWhile (· ≠ '\n')).length + 1
  expected.message ++ ": line " ++ toString line ++ " column " ++ toString column ++ " (char " ++
    toString before.length ++ ")"

def tooLongMessage (digits : Nat) : String :=
  "Exceeds the limit (" ++ toString digitLimit ++ " digits) for integer string conversion: value has " ++
    toString digits ++ " digits; use sys.set_int_max_str_digits() to increase the limit"

end Stencil.Json
