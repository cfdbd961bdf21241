import Stencil.Proofs.ReadingShapes

/-! How conditions are spelled. A piece is spelled by its kind; blanks may stand before every piece and before the end of the
tag, and must stand where two pieces would otherwise run into one. The pieces that are read are those that are spelled. -/

namespace Stencil
open Text Scan

namespace Text

/-- Whether two tables have nothing in common, also where there are too many ranges to compare each with each. A step passes
a range of one table that lies before the next of the other, so there are no more steps than ranges. -/
def Ranges.disjoint : Nat → Ranges → Ranges → Bool
  | 0, _, _ => false
  | _ + 1, [], _ => true
  | _ + 1, _ :: _, [] => true
  | steps + 1, (first, last) :: left, (first', last') :: right =>
    if last < first' then disjoint steps left ((first', last') :: right)
    else last' < first && disjoint steps ((first, last) :: left) right

theorem Ranges.holds_of_disjoint {left right : Ranges} (steps : Nat) (apart : disjoint steps left right = true) {n : Nat}
    (held : left.holds n = true) : right.holds n = false := by
  fun_induction disjoint steps left right with
  | case1 => cases apart
  | case2 => cases held
  | case3 => rfl
  | case4 steps first last left first' last' right before ih =>
    rw [holds] at held
    split at held
    · cases held
    rcases Bool.or_eq_true_iff.mp held with inside | later
    · have early : n < first' := Nat.lt_of_le_of_lt (of_decide_eq_true inside) before
      rw [holds, if_pos early]
    · exact ih apart later
  | case5 steps first last left first' last' right _ ih =>
    obtain ⟨before, apart⟩ := Bool.and_eq_true_iff.mp apart
    have further := ih apart held
    rw [holds] at held ⊢
    split at held
    · cases held
    next reached =>
      have late : ¬ n ≤ last' := by
        have := of_decide_eq_true before
        omega
      simp [late, further]

variable {c : Char}

theorem isDigit_of_letter (letter : isLetter c = true) : isDigit c = false := by
  have decimal : decimalDigits.contains c = false := Ranges.holds_of_disjoint 1000 (by decide +kernel) letter
  have ornamental : ornamentalDigits.contains c = false := Ranges.holds_of_disjoint 1000 (by decide +kernel) letter
  rw [isDigit, decimal, ornamental]
  rfl

theorem isAlphanumeric_of_blank (blank : isBlank c = true) : isAlphanumeric c = false := by
  have letter : isLetter c = false := Ranges.holds_of_disjoint 1000 (by decide +kernel) blank
  have decimal : decimalDigits.contains c = false := Ranges.holds_of_disjoint 1000 (by decide +kernel) blank
  have ornamental : ornamentalDigits.contains c = false := Ranges.holds_of_disjoint 1000 (by decide +kernel) blank
  have numeral : numerals.contains c = false := Ranges.holds_of_disjoint 1000 (by decide +kernel) blank
  rw [isAlphanumeric, isDigit, letter, decimal, ornamental, numeral]
  rfl

theorem isDigit_of_blank (blank : isBlank c = true) : isDigit c = false := by
  have none := isAlphanumeric_of_blank blank
  simp only [isAlphanumeric, Bool.or_eq_false_iff] at none
  exact none.1.2

end Text

namespace Expression
variable {kind : Kind} {c : Char}

/-- Whether a piece of this kind begins with the character. -/
def begins : Kind → Char → Bool
  | .string => isQuote
  | .number => isDigit
  | .operator => isOperatorStart
  | .identifier => isIdentifierStart

theorem isQuote_iff : isQuote c = true ↔ c = '\'' ∨ c = '"' := by simp [isQuote]

theorem isOperatorStart_iff : isOperatorStart c = true ↔ c = '=' ∨ c = '!' ∨ c = '&' ∨ c = '|' := by
  simp [isOperatorStart, or_assoc]

theorem isIdentifierStart_iff : isIdentifierStart c = true ↔ isLetter c = true ∨ c = '_' := by
  simp [isIdentifierStart]

theorem isIdentifierChar_of_blank (blank : isBlank c = true) : isIdentifierChar c = false := by
  have lowLine : c ≠ '_' := by rintro rfl; revert blank; decide
  have point : c ≠ '.' := by rintro rfl; revert blank; decide
  simp [isIdentifierChar, isAlphanumeric_of_blank blank, lowLine, point]

theorem isBlank_of_identifierChar (goes : isIdentifierChar c = true) : isBlank c = false := by
  rw [Bool.eq_false_iff]
  intro blank
  rw [isIdentifierChar_of_blank blank] at goes
  cases goes

/-- No character begins pieces of two kinds. -/
theorem kindOf_eq_some_iff : kindOf? c = some kind ↔ begins kind c = true := by
  have quote (mark : isQuote c = true) : isDigit c = false ∧ isOperatorStart c = false ∧ isIdentifierStart c = false := by
    rcases isQuote_iff.mp mark with rfl | rfl <;> decide
  have operator (sign : isOperatorStart c = true) : isDigit c = false ∧ isIdentifierStart c = false := by
    rcases isOperatorStart_iff.mp sign with rfl | rfl | rfl | rfl <;> decide
  have identifier (starts : isIdentifierStart c = true) : isDigit c = false := by
    rcases isIdentifierStart_iff.mp starts with letter | rfl
    · exact isDigit_of_letter letter
    · decide
  unfold kindOf?
  cases kind <;> simp only [begins] <;> grind

theorem isIdentifierChar_of_start (starts : isIdentifierStart c = true) : isIdentifierChar c = true := by
  rcases isIdentifierStart_iff.mp starts with letter | rfl
  · simp [isIdentifierChar, isAlphanumeric, letter]
  · decide

theorem isIdentifierChar_of_digit (digit : isDigit c = true) : isIdentifierChar c = true := by
  simp [isIdentifierChar, isAlphanumeric, digit]

/-- Among the characters that begin pieces, those that could go on an identifier begin identifiers and numbers. -/
theorem isIdentifierChar_of_begins (starts : begins kind c = true) :
    isIdentifierChar c = true ↔ kind = .identifier ∨ kind = .number := by
  cases kind with
  | string => rcases isQuote_iff.mp starts with rfl | rfl <;> decide
  | operator => rcases isOperatorStart_iff.mp starts with rfl | rfl | rfl | rfl <;> decide
  | number => simp [isIdentifierChar_of_digit starts]
  | identifier => simp [isIdentifierChar_of_start starts]

theorem isDigit_of_begins (starts : begins kind c = true) : isDigit c = true ↔ kind = .number := by
  constructor
  · intro digit
    have same : kindOf? c = some .number := kindOf_eq_some_iff.mpr digit
    rw [kindOf_eq_some_iff.mpr starts] at same
    exact Option.some.inj same
  · rintro rfl
    exact starts

/-- No piece begins with a blank, with a point or like the end of the tag. -/
theorem apart_of_begins (starts : begins kind c = true) : isBlank c = false ∧ c ≠ '%' ∧ c ≠ '.' := by
  cases kind with
  | string => rcases isQuote_iff.mp starts with rfl | rfl <;> decide
  | operator => rcases isOperatorStart_iff.mp starts with rfl | rfl | rfl | rfl <;> decide
  | number =>
    refine ⟨isBlank_of_identifierChar (isIdentifierChar_of_digit starts), ?_, ?_⟩ <;> rintro rfl <;> cases starts
  | identifier =>
    refine ⟨isBlank_of_identifierChar (isIdentifierChar_of_start starts), ?_, ?_⟩ <;> rintro rfl <;> cases starts

def operators : List (List Char) := [['=', '='], ['!', '='], ['&', '&'], ['|', '|']]

/-- How a piece is written. -/
inductive Spelled : Kind → String → List Char → Prop
  | string {quote : Char} {content : List Char} (mark : isQuote quote = true) (free : quote ∉ content) :
      Spelled .string (.ofList content) (quote :: content ++ [quote])
  | whole {digits : List Char} (filled : digits ≠ []) (each : ∀ c ∈ digits, isDigit c = true) :
      Spelled .number (.ofList digits) digits
  | pointed {digits places : List Char} (filled : digits ≠ []) (each : ∀ c ∈ digits, isDigit c = true)
      (filled' : places ≠ []) (each' : ∀ c ∈ places, isDigit c = true) :
      Spelled .number (.ofList (digits ++ '.' :: places)) (digits ++ '.' :: places)
  | operator {sign : List Char} (known : sign ∈ operators) : Spelled .operator (.ofList sign) sign
  | identifier {first : Char} {more : List Char} (starts : isIdentifierStart first = true)
      (each : ∀ c ∈ more, isIdentifierChar c = true) : Spelled .identifier (.ofList (first :: more)) (first :: more)

theorem Spelled.begins {value : String} {text : List Char} (spelled : Spelled kind value text) :
    ∃ c rest, text = c :: rest ∧ Expression.begins kind c = true := by
  cases spelled with
  | string mark free => exact ⟨_, _, rfl, mark⟩
  | whole filled each =>
    obtain ⟨c, rest, rfl⟩ := List.exists_cons_of_ne_nil filled
    exact ⟨c, rest, rfl, each c List.mem_cons_self⟩
  | pointed filled each _ _ =>
    obtain ⟨c, rest, rfl⟩ := List.exists_cons_of_ne_nil filled
    exact ⟨c, _, rfl, each c List.mem_cons_self⟩
  | operator known =>
    simp only [operators, List.mem_cons, List.not_mem_nil, or_false] at known
    rcases known with rfl | rfl | rfl | rfl <;> exact ⟨_, _, rfl, by decide⟩
  | identifier starts each => exact ⟨_, _, rfl, starts⟩

def PointAhead (rest : List Char) : Prop := ∃ c more, rest = '.' :: c :: more ∧ isDigit c = true

/-- Behind a piece comes nothing that would make it longer. -/
def Ends : Kind → List Char → List Char → Prop
  | .identifier, _, rest => Stops isIdentifierChar rest
  | .number, text, rest => Stops isDigit rest ∧ ('.' ∈ text ∨ ¬ PointAhead rest)
  | .string, _, _ | .operator, _, _ => True

private theorem exactly_readString : Exactly readString fun _ text _ value =>
    ∃ quote content, text = quote :: content ++ [quote] ∧ value = .ofList content ∧ quote ∉ content := by
  have read : Exactly readString _ := exactly_advance.bind fun quote =>
    (exactly_readWhile fun c => decide (c ≠ quote)).bind fun _ => exactly_advance.bind fun _ => exactly_pure _
  refine read.congr ?_
  intro place text rest value
  constructor
  · rintro ⟨quote, _, _, rfl, rfl, _, content, _, rfl, ⟨rfl, each, stops⟩, mark, _, _, rfl, rfl, rfl, rfl⟩
    have closes : mark = quote := by simpa [Stops] using stops
    refine ⟨quote, content, by simp [closes], rfl, ?_⟩
    simpa using fun member => each quote member
  · rintro ⟨quote, content, rfl, rfl, free⟩
    refine ⟨quote, [quote], content ++ [quote], rfl, rfl, _, content, [quote], rfl, ⟨rfl, ?_, by simp [Stops]⟩, quote, [quote], [],
      rfl, rfl, rfl, rfl⟩
    intro c member
    have other : c ≠ quote := fun same => free (same ▸ member)
    simpa using other

private theorem exactly_places (whole : String) : Exactly (do
    let cursor ← get
    if cursor.next? = some '.' && (cursor.look 1).any isDigit then
      let point ← advance
      let places ← readWhile isDigit
      return whole.push point ++ places
    else return whole) fun _ text rest value => (text = [] ∧ value = whole ∧ ¬ PointAhead rest) ∨
      ∃ places, text = '.' :: places ∧ places ≠ [] ∧ (∀ c ∈ places, isDigit c = true) ∧ Stops isDigit rest ∧
        value = whole ++ .ofList text := by
  intro cursor
  apply ExactlyAt.after_get
  have ahead_iff : (cursor.next? = some '.' && (cursor.look 1).any isDigit) = true ↔ PointAhead cursor.rest := by
    rcases here : cursor.rest with _ | ⟨c, _ | ⟨d, more⟩⟩ <;> simp [Cursor.next?, Cursor.look, PointAhead, here]
  split
  next point =>
    have read : ExactlyAt (do let point ← advance; let places ← readWhile isDigit; return whole.push point ++ places) _ cursor :=
      (exactly_advance.bind fun _ => (exactly_readWhile isDigit).bind fun _ => exactly_pure _) cursor
    refine read.congr ?_
    intro text rest value ahead
    obtain ⟨c, more, here, digit⟩ := ahead_iff.mp point
    rw [ahead] at here
    constructor
    · rintro ⟨mark, _, _, rfl, rfl, _, places, _, rfl, ⟨rfl, each, stops⟩, rfl, rfl⟩
      rw [List.append_nil, List.singleton_append, List.cons_append] at here
      obtain ⟨rfl, behind⟩ := List.cons.inj here
      have filled : places ≠ [] := by
        rintro rfl
        rw [List.nil_append] at behind stops
        rw [behind, stops_cons, digit] at stops
        cases stops
      refine .inr ⟨places, by simp, filled, each, stops, ?_⟩
      simp [← String.toList_inj]
    · rintro (⟨rfl, rfl, no⟩ | ⟨places, rfl, _, each, stops, rfl⟩)
      · exact absurd ⟨c, more, here, digit⟩ no
      · refine ⟨'.', ['.'], places, rfl, rfl, .ofList places, places, [], by simp, ⟨rfl, each, stops⟩, rfl, ?_⟩
        simp [← String.toList_inj]
  next plain =>
    refine (exactly_pure whole cursor).congr ?_
    intro text rest value ahead
    have no : ¬ PointAhead cursor.rest := fun point => plain (ahead_iff.mpr point)
    rw [ahead] at no
    constructor
    · rintro ⟨rfl, rfl⟩
      exact .inl ⟨rfl, rfl, no⟩
    · rintro (⟨rfl, rfl, _⟩ | ⟨places, rfl, filled, each, _⟩)
      · exact ⟨rfl, rfl⟩
      · obtain ⟨c, more, rfl⟩ := List.exists_cons_of_ne_nil filled
        exact absurd ⟨c, _, rfl, each c List.mem_cons_self⟩ no

private theorem exactly_readNumber : Exactly readNumber fun _ text rest value =>
    ∃ whole, (∀ c ∈ whole, isDigit c = true) ∧ value = .ofList text ∧ Stops isDigit rest ∧
      ((text = whole ∧ ¬ PointAhead rest) ∨
        ∃ places, text = whole ++ '.' :: places ∧ places ≠ [] ∧ ∀ c ∈ places, isDigit c = true) := by
  have read : Exactly readNumber _ := (exactly_readWhile isDigit).bind exactly_places
  refine read.congr ?_
  intro place text rest value
  constructor
  · rintro ⟨_, whole, _, rfl, ⟨rfl, each, stops⟩, ⟨rfl, rfl, no⟩ | ⟨places, rfl, filled, each', stops', rfl⟩⟩
    · exact ⟨whole, each, by simp, stops, .inl ⟨by simp, no⟩⟩
    · exact ⟨whole, each, by simp, stops', .inr ⟨places, rfl, filled, each'⟩⟩
  · rintro ⟨whole, each, rfl, stops, ⟨rfl, no⟩ | ⟨places, rfl, filled, each'⟩⟩
    · exact ⟨_, text, [], by simp, ⟨rfl, each, stops⟩, .inl ⟨rfl, rfl, no⟩⟩
    · refine ⟨_, whole, '.' :: places, rfl, ⟨rfl, each, stops_cons.mpr (by decide)⟩, .inr ⟨places, rfl, filled, each', stops, ?_⟩⟩
      simp

private theorem exactlyAt_readValue {cursor : Cursor} (ahead : cursor.next? = some c) (starts : begins kind c = true) :
    ExactlyAt (readValue kind) (fun _ text rest value => Spelled kind value text ∧ Ends kind text rest) cursor := by
  obtain ⟨tail, here⟩ := List.head?_eq_some_iff.mp ahead
  cases kind with
  | string =>
    refine (exactly_readString cursor).congr ?_
    intro text rest value split
    constructor
    · rintro ⟨quote, content, rfl, rfl, free⟩
      rw [split] at here
      cases here
      exact ⟨.string starts free, trivial⟩
    · rintro ⟨spelled, _⟩
      cases spelled with
      | string mark free => exact ⟨_, _, rfl, rfl, free⟩
  | number =>
    refine (exactly_readNumber cursor).congr ?_
    intro text rest value split
    rw [split] at here
    constructor
    · rintro ⟨whole, each, rfl, stops, others⟩
      have filled : whole ≠ [] := by
        rintro rfl
        rcases others with ⟨rfl, _⟩ | ⟨places, rfl, _⟩
        · rw [List.nil_append] at here
          rw [here, stops_cons] at stops
          exact absurd starts (Bool.eq_false_iff.mp stops)
        · cases here
          cases starts
      rcases others with ⟨rfl, no⟩ | ⟨places, rfl, filled', each'⟩
      · exact ⟨.whole filled each, stops, .inr no⟩
      · exact ⟨.pointed filled each filled' each', stops, .inl (by simp)⟩
    · rintro ⟨spelled, stops, others⟩
      cases spelled with
      | whole filled each =>
        refine ⟨text, each, rfl, stops, .inl ⟨rfl, others.resolve_left ?_⟩⟩
        intro member
        cases each '.' member
      | pointed filled each filled' each' => exact ⟨_, each, rfl, stops, .inr ⟨_, rfl, filled', each'⟩⟩
  | operator =>
    intro value after
    rw [readValue, readOperator_ok_iff]
    constructor
    · rintro ⟨first, rest, ahead, rfl, rfl⟩
      rw [ahead] at here
      cases here
      refine ⟨[c, partner c], by simp [ahead], rfl, .operator ?_, trivial⟩
      rcases isOperatorStart_iff.mp starts with rfl | rfl | rfl | rfl <;> decide
    · rintro ⟨text, ahead, moved, spelled, _⟩
      cases spelled with
      | operator known =>
        simp only [operators, List.mem_cons, List.not_mem_nil, or_false] at known
        rcases known with rfl | rfl | rfl | rfl <;> exact ⟨_, _, ahead, rfl, moved⟩
  | identifier =>
    refine (exactly_readWhile isIdentifierChar cursor).congr ?_
    intro text rest value split
    rw [split] at here
    constructor
    · rintro ⟨rfl, each, stops⟩
      cases text with
      | nil =>
        rw [List.nil_append] at here
        rw [here, stops_cons, isIdentifierChar_of_start starts] at stops
        cases stops
      | cons first more =>
        cases here
        exact ⟨.identifier starts fun d member => each d (List.mem_cons_of_mem _ member), stops⟩
    · rintro ⟨spelled, stops⟩
      cases spelled with
      | identifier starts each =>
        exact ⟨rfl, List.forall_mem_cons.mpr ⟨isIdentifierChar_of_start starts, each⟩, stops⟩

theorem exactly_readPiece : Exactly readPiece fun place text rest piece =>
    piece.position = some place ∧ Spelled piece.kind piece.value text ∧ Ends piece.kind text rest := by
  intro cursor
  apply ExactlyAt.after_get
  cases found : cursor.next?.bind kindOf? with
  | none =>
    apply exactlyAt_never (fun piece after => unexpected_ne_ok _ cursor after piece)
    intro text rest piece ahead ⟨_, spelled, _⟩
    obtain ⟨c, more, rfl, starts⟩ := spelled.begins
    simp [Cursor.next?, ahead, kindOf_eq_some_iff.mpr starts] at found
  | some kind =>
    obtain ⟨c, ahead, starts⟩ := Option.bind_eq_some_iff.mp found
    refine ((exactlyAt_readValue ahead (kindOf_eq_some_iff.mp starts)).bind fun _ => exactly_pure _).congr ?_
    intro text rest piece split
    constructor
    · rintro ⟨value, front, _, rfl, fits, rfl, rfl⟩
      exact ⟨rfl, by simpa using fits⟩
    · intro ⟨place, spelled, ends⟩
      obtain ⟨d, more, rfl, starts'⟩ := spelled.begins
      have same : piece.kind = kind := by
        simp only [Cursor.next?, split, List.cons_append, List.head?_cons, Option.some.injEq] at ahead
        rw [← ahead, kindOf_eq_some_iff.mpr starts'] at starts
        exact Option.some.inj starts
      refine ⟨piece.value, d :: more, [], by simp, ⟨same ▸ spelled, same ▸ ends⟩, rfl, ?_⟩
      rw [← same, ← place]

/-- What comes before may be followed at once by the first of the pieces, or a blank comes first. -/
def Parted (touching : Option Kind → Kind → Prop) (last : Option Kind) (pieces : List Piece) (text : List Char) : Prop :=
  ∀ next ∈ pieces.head?, Stops isBlank text → touching last next.kind

/-- How the pieces of a condition and the end of its tag are written from a place on. -/
inductive SpelledAll (touching : Option Kind → Kind → Prop) : Position → List Piece → List Char → Prop
  | close {place : Position} {gap : List Char} (blank : ∀ c ∈ gap, isBlank c = true) :
      SpelledAll touching place [] (gap ++ controlClose)
  | piece {place : Position} {gap text more : List Char} {piece : Piece} {pieces : List Piece}
      (blank : ∀ c ∈ gap, isBlank c = true) (stands : piece.position = some (place.past gap))
      (spelled : Spelled piece.kind piece.value text) (parted : Parted touching (some piece.kind) pieces more)
      (others : SpelledAll touching (place.past (gap ++ text)) pieces more) :
      SpelledAll touching place (piece :: pieces) (gap ++ text ++ more)

/-- A piece that comes at once would go on what is before it: an identifier or a number the keyword or an identifier, a
number another number. -/
def Separate : Option Kind → Kind → Prop
  | none, kind | some .identifier, kind => kind ≠ .identifier ∧ kind ≠ .number
  | some .number, kind => kind ≠ .number
  | some .string, _ | some .operator, _ => True

section
variable {touching : Option Kind → Kind → Prop} {place : Position} {pieces : List Piece} {text rest : List Char}

theorem SpelledAll.head (spelled : SpelledAll touching place pieces text) : ∃ c more, text = c :: more ∧
    (isBlank c = true ∨ (isBlank c = false ∧ pieces = [] ∧ c = '%') ∨
      ∃ next others, isBlank c = false ∧ pieces = next :: others ∧ begins next.kind c = true) := by
  cases spelled with
  | close blank =>
    rename_i gap
    cases gap with
    | nil => exact ⟨'%', ['}'], rfl, .inr (.inl ⟨by decide, rfl, rfl⟩)⟩
    | cons c gap => exact ⟨c, _, rfl, .inl (blank c List.mem_cons_self)⟩
  | piece blank stands spelled parted others =>
    rename_i gap text more piece pieces
    cases gap with
    | nil =>
      obtain ⟨c, rest, rfl, starts⟩ := spelled.begins
      exact ⟨c, rest ++ more, rfl, .inr (.inr ⟨piece, pieces, (apart_of_begins starts).1, rfl, starts⟩)⟩
    | cons c gap => exact ⟨c, _, rfl, .inl (blank c List.mem_cons_self)⟩

/-- Of a class that has neither blanks nor the percent sign, what comes first behind the pieces before can only be the start
of a piece. -/
theorem SpelledAll.stops_iff (spelled : SpelledAll touching place pieces text) {keep : Char → Bool}
    {goes : Kind → Prop} (blank : ∀ c, isBlank c = true → keep c = false) (percent : keep '%' = false)
    (starts : ∀ kind c, begins kind c = true → (keep c = true ↔ goes kind)) :
    Stops keep (text ++ rest) ↔ ∀ next ∈ pieces.head?, Stops isBlank text → ¬ goes next.kind := by
  obtain ⟨c, more, rfl, first | ⟨solid, rfl, rfl⟩ | ⟨next, others, solid, rfl, opens⟩⟩ := spelled.head
  · simp [stops_cons, first, blank c first]
  · simp [stops_cons, percent]
  · simp [stops_cons, solid, ← starts next.kind c opens]

theorem SpelledAll.stops_identifier_iff (spelled : SpelledAll touching place pieces text) :
    Stops isIdentifierChar (text ++ rest) ↔ Parted Separate none pieces text := by
  rw [spelled.stops_iff (fun c => isIdentifierChar_of_blank) (by decide) fun kind c => isIdentifierChar_of_begins]
  simp only [Parted, Separate, not_or]

/-- The pieces end where they do exactly if they do not run into each other. -/
theorem SpelledAll.ends_iff (others : SpelledAll touching place pieces text) {kind : Kind} {front : List Char} :
    Ends kind front (text ++ rest) ↔ Parted Separate (some kind) pieces text := by
  cases kind with
  | identifier => exact others.stops_identifier_iff
  | number =>
    have pointless : ¬ PointAhead (text ++ rest) := by
      rintro ⟨d, more, point, _⟩
      obtain ⟨c, _, rfl, first⟩ := others.head
      obtain rfl := (List.cons.inj point).1
      rcases first with first | ⟨_, _, same⟩ | ⟨next, _, _, _, starts⟩
      · revert first
        decide
      · cases same
      · exact (apart_of_begins starts).2.2 rfl
    rw [Ends, others.stops_iff (fun _ => isDigit_of_blank) (by decide) fun kind c => isDigit_of_begins, or_iff_right_of_imp fun _ => pointless,
      and_iff_left pointless]
    rfl
  | string => simp [Ends, Parted, Separate]
  | operator => simp [Ends, Parted, Separate]

end

private theorem readAll_spelledAll {cursor : Cursor} {text rest : List Char} {pieces : List Piece}
    (ahead : cursor.rest = text ++ rest) (spelled : SpelledAll Separate cursor.position pieces text) :
    readAll cursor = .ok pieces (cursor.forwardBy text.length) := by
  generalize here : cursor.position = place at spelled
  induction spelled generalizing cursor with
  | @close place gap blank =>
    rw [List.append_assoc] at ahead
    have skipped := pastWhile_eq ahead blank (stops_cons.mpr (by decide))
    have closes : (cursor.pastWhile isBlank).startsWith controlClose = true := by
      rw [skipped, startsWith_iff, Cursor.rest_forwardBy, ahead, List.drop_left]
      exact List.prefix_append ..
    rw [readAll_done closes, skipped, List.length_append, Cursor.forwardBy_add]
    rfl
  | @piece place gap text more piece pieces blank stands spelled parted others ih =>
    obtain ⟨c, front, opening, starts⟩ := spelled.begins
    obtain ⟨solid, percent, _⟩ := apart_of_begins starts
    rw [List.append_assoc, List.append_assoc] at ahead
    have skipped := pastWhile_eq ahead blank (by simp [opening, stops_cons, solid])
    have start : (cursor.forwardBy gap.length).rest = text ++ (more ++ rest) := by
      rw [Cursor.rest_forwardBy, ahead, List.drop_left]
    have further : ((cursor.forwardBy gap.length).forwardBy text.length).rest = more ++ rest := by
      rw [Cursor.rest_forwardBy, start, List.drop_left]
    have between := Cursor.position_forwardBy ahead
    have goes : (cursor.pastWhile isBlank).startsWith controlClose = false := by
      rw [skipped, Cursor.startsWith, start, opening]
      simp [controlClose, List.isPrefixOf, percent.symm]
    have read := (exactly_readPiece (cursor.forwardBy gap.length)).reads start
      ⟨by rw [between, here, stands], spelled, others.ends_iff.mpr parted⟩
    rw [← skipped] at read
    have place := Cursor.position_forwardBy start
    rw [between, ← Position.past_append, here] at place
    rw [readAll_piece goes read (ih (skipped ▸ further) (skipped ▸ place)), skipped]
    simp only [List.length_append, Cursor.forwardBy_add]

theorem exactly_readAll : Exactly readAll fun place text _ pieces => SpelledAll Separate place pieces text := by
  intro cursor pieces final
  constructor
  · intro done
    fun_induction readAll cursor generalizing pieces final with
    | case1 => cases done
    | case2 cursor start _ closes =>
      cases done
      obtain ⟨gap, ahead, moved, blank, _⟩ := (exactly_skipBlanks cursor () start).mp rfl
      obtain ⟨rest, here⟩ := startsWith_iff.mp closes
      refine ⟨gap ++ controlClose, ?_, ?_, .close blank⟩
      · rw [Cursor.rest_forwardBy, ahead, ← here]
        simp [controlClose]
      · rw [moved, List.length_append, Cursor.forwardBy_add]
        rfl
    | case3 => cases done
    | case4 => cases done
    | case5 cursor start _ _ piece after taken others last more ih =>
      cases done
      obtain ⟨gap, ahead, moved, blank, _⟩ := (exactly_skipBlanks cursor () start).mp rfl
      obtain ⟨text, ahead', moved', place, spelled, ends⟩ := (exactly_readPiece start piece after).mp taken
      obtain ⟨behind, ahead'', moved'', rest⟩ := ih others last more
      have between := Cursor.position_forwardBy ahead
      rw [← moved] at between
      have further := Cursor.position_forwardBy ahead'
      rw [← moved', between, ← Position.past_append] at further
      rw [further] at rest
      rw [ahead''] at ends
      refine ⟨gap ++ text ++ behind, ?_, ?_, .piece blank (between ▸ place) spelled (rest.ends_iff.mp ends) rest⟩
      · rw [ahead, ahead', ahead'', List.append_assoc, List.append_assoc]
      · rw [moved'', moved', moved]
        simp only [List.length_append, Cursor.forwardBy_add]
  · rintro ⟨text, ahead, moved, spelled⟩
    rw [moved, readAll_spelledAll ahead spelled]

end Expression
end Stencil
