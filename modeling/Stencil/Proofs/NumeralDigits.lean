import Mathlib.Data.List.TakeDrop
import Stencil.Number.Numeral

/-! Which runs of digits are numerals. Digits of every kind may be written where a number is wanted, and one point among
them. Such a run stands for a number exactly if all its digits are decimal. -/

namespace Stencil
open Text Number

namespace Text.Ranges

def apart (first second : Ranges) : Bool :=
  first.all fun range => second.all fun other => range.2 < other.1 || other.2 < range.1

theorem exists_of_holds {table : Ranges} {n : Nat} (held : table.holds n = true) :
    ∃ range ∈ table, range.1 ≤ n ∧ n ≤ range.2 := by
  induction table with
  | nil => cases held
  | cons range more ih =>
    simp only [holds] at held
    split at held
    · cases held
    next reached =>
      rcases Bool.or_eq_true_iff.mp held with inside | beyond
      · exact ⟨range, by simp, by omega, by simpa using inside⟩
      · obtain ⟨other, member, bounds⟩ := ih beyond
        exact ⟨other, List.mem_cons_of_mem _ member, bounds⟩

theorem holds_of_apart {first second : Ranges} (separate : first.apart second = true) {n : Nat}
    (held : first.holds n = true) : second.holds n = false := by
  rw [Bool.eq_false_iff]
  intro both
  obtain ⟨range, member, _, _⟩ := exists_of_holds held
  obtain ⟨other, inside, _, _⟩ := exists_of_holds both
  have between := List.all_eq_true.mp (List.all_eq_true.mp separate range member) other inside
  simp only [Bool.or_eq_true, decide_eq_true_eq] at between
  omega

end Text.Ranges

namespace Number

/-- Digits of any kind, and at most one point with digits before it. -/
def PointedDigits (chars : List Char) : Prop :=
  ∃ whole, whole ≠ [] ∧ (∀ c ∈ whole, isDigit c = true) ∧
    (chars = whole ∨ ∃ places, (∀ c ∈ places, isDigit c = true) ∧ chars = whole ++ '.' :: places)

private theorem plainDigit_iff (c : Char) : isPlainDigit c = true ↔ 48 ≤ c.toNat ∧ c.toNat ≤ 57 := by
  simp only [isPlainDigit, Bool.and_eq_true, decide_eq_true_eq, Char.le_def, UInt32.le_iff_toNat_le]
  rfl

private theorem margin_iff (c : Char) : isMargin c = true ↔ c = ' ' ∨ 9 ≤ c.toNat ∧ c.toNat ≤ 13 := by
  simp only [isMargin, Bool.or_eq_true, Bool.and_eq_true, decide_eq_true_eq, Char.le_def, UInt32.le_iff_toNat_le]
  rfl

private theorem isSome_decimalValueIn (table : Ranges) (n : Nat) : (decimalValueIn table n).isSome = table.holds n := by
  induction table with
  | nil => rfl
  | cons range more ih =>
    simp only [decimalValueIn, Ranges.holds]
    split
    · rfl
    · split
      next inside => simp [inside]
      next outside => simp [ih, outside]

private theorem decimalValueIn_lt {table : Ranges} {n value : Nat} (found : decimalValueIn table n = some value) :
    value < 10 := by
  induction table with
  | nil => cases found
  | cons range more ih =>
    simp only [decimalValueIn] at found
    split at found
    · cases found
    · split at found
      · cases found
        exact Nat.mod_lt _ (by decide)
      · exact ih found

private theorem ornamental_of_undecimal {c : Char} (digit : isDigit c = true) (undecimal : decimalValue? c = none) :
    ornamentalDigits.holds c.toNat = true := by
  have outside : decimalDigits.holds c.toNat = false := by
    rw [← isSome_decimalValueIn]
    simpa [decimalValue?] using undecimal
  simpa [isDigit, Ranges.contains, outside] using digit

private theorem plainForm_of_ornamental {c : Char} (ornamental : ornamentalDigits.holds c.toNat = true) :
    plainForm c = c ∧ 128 ≤ c.toNat := by
  have far : 128 ≤ c.toNat := by
    obtain ⟨range, member, low, _⟩ := Ranges.exists_of_holds ornamental
    have start : ∀ range ∈ ornamentalDigits, 128 ≤ range.1 := by decide
    exact Nat.le_trans (start range member) low
  have notBlank : isBlank c = false := Ranges.holds_of_apart (by decide) ornamental
  have notDecimal : decimalDigits.holds c.toNat = false := Ranges.holds_of_apart (by decide) ornamental
  have undecimal : decimalValue? c = none := by
    rw [← isSome_decimalValueIn] at notDecimal
    simpa [decimalValue?] using notDecimal
  exact ⟨by simp [plainForm, Nat.not_lt.mpr far, notBlank, undecimal], far⟩

private theorem plainForm_of_decimal {c : Char} {value : Nat} (decimal : decimalValue? c = some value) :
    isPlainDigit (plainForm c) = true := by
  have held : decimalDigits.holds c.toNat = true := by
    rw [← isSome_decimalValueIn]
    simpa [decimalValue?] using Option.isSome_of_eq_some decimal
  by_cases near : c.toNat < 128
  · have inside : ∀ n < 128, decimalDigits.holds n = true → 48 ≤ n ∧ n ≤ 57 := by decide
    simpa [plainForm, near, plainDigit_iff] using inside c.toNat near held
  · have notBlank : isBlank c = false := Ranges.holds_of_apart (by decide) held
    have written : ∀ digit < 10, isPlainDigit (Nat.digitChar digit) = true := by decide
    simpa [plainForm, near, notBlank, decimal] using written value (decimalValueIn_lt decimal)

private def PlainOrFar (c : Char) : Prop := isPlainDigit c = true ∨ 128 ≤ c.toNat

private theorem plainOrFar_of_digit {c : Char} (digit : isDigit c = true) : PlainOrFar (plainForm c) := by
  cases decimal : decimalValue? c with
  | some value => exact .inl (plainForm_of_decimal decimal)
  | none =>
    obtain ⟨same, far⟩ := plainForm_of_ornamental (ornamental_of_undecimal digit decimal)
    exact .inr (same.symm ▸ far)

private theorem far_iff_undecimal {c : Char} (digit : isDigit c = true) :
    128 ≤ (plainForm c).toNat ↔ decimalValue? c = none := by
  cases decimal : decimalValue? c with
  | some value =>
    have plain := (plainDigit_iff _).mp (plainForm_of_decimal decimal)
    simp only [reduceCtorEq, iff_false]
    omega
  | none =>
    obtain ⟨same, far⟩ := plainForm_of_ornamental (ornamental_of_undecimal digit decimal)
    simpa [same] using far

private theorem withoutMargins_eq {chars : List Char} (inner : ∀ c ∈ chars, isMargin c = false) :
    withoutMargins chars = chars := by
  have kept (part : List Char) (inner : ∀ c ∈ part, isMargin c = false) : part.dropWhile isMargin = part := by
    cases part with
    | nil => rfl
    | cons c rest => simp [inner c (by simp)]
  rw [withoutMargins, kept chars inner, kept chars.reverse (by simpa using inner), List.reverse_reverse]

private theorem withoutLowLines_eq {chars : List Char} (absent : '_' ∉ chars) (previous : Char) :
    withoutLowLines? previous chars = some chars := by
  induction chars generalizing previous with
  | nil => rfl
  | cons c rest ih =>
    have differs : c ≠ '_' := by
      intro same
      exact absent (by simp [same])
    rw [withoutLowLines?]
    · simp [ih (fun member => absent (List.mem_cons_of_mem _ member))]
    · exact fun same => differs same

private theorem first_far {chars : List Char} (settled : ∀ c ∈ chars, PlainOrFar c)
    (mixed : ¬ ∀ c ∈ chars, isPlainDigit c = true) :
    ∃ front x back, chars = front ++ x :: back ∧ (∀ c ∈ front, isPlainDigit c = true) ∧ 128 ≤ x.toNat := by
  induction chars with
  | nil => exact absurd (by simp) mixed
  | cons c rest ih =>
    rcases settled c (by simp) with plain | far
    · have later : ¬ ∀ c ∈ rest, isPlainDigit c = true := by
        intro all
        exact mixed (by simpa [plain] using all)
      obtain ⟨front, x, back, split, before, far⟩ := ih (fun d member => settled d (by simp [member])) later
      exact ⟨c :: front, x, back, by simp [split], by simpa [plain] using before, far⟩
    · exact ⟨[], c, rest, rfl, by simp, far⟩

private theorem span_of_stop {front : List Char} (rest : List Char) (plain : ∀ c ∈ front, isPlainDigit c = true)
    (stops : ∀ c, rest.head? = some c → isPlainDigit c = false) :
    (front ++ rest).span isPlainDigit = (front, rest) := by
  rw [List.span_eq_takeWhile_dropWhile, List.takeWhile_append_of_pos plain, List.dropWhile_append_of_pos plain]
  cases rest with
  | nil => simp
  | cons c rest => simp [stops c rfl]

private theorem not_plain_of_far {c : Char} (far : 128 ≤ c.toNat) : isPlainDigit c = false := by
  rw [Bool.eq_false_iff]
  intro plain
  have bounds := (plainDigit_iff c).mp plain
  omega

private theorem toLower_eq {c : Char} (settled : PlainOrFar c) : c.toLower = c := by
  have beyond : ¬ (c.val ≥ 65 ∧ c.val ≤ 90) := by
    simp only [ge_iff_le, UInt32.le_iff_toNat_le, not_and]
    intro low high
    have low : 65 ≤ c.toNat := low
    have high : c.toNat ≤ 90 := high
    rcases settled with plain | far
    · have bounds := (plainDigit_iff c).mp plain
      omega
    · omega
  exact dif_neg beyond

private theorem exponent_of_far {x : Char} (far : 128 ≤ x.toNat) (rest : List Char) : exponent? (x :: rest) = none := by
  have differs : x ≠ 'e' := by
    intro same
    subst same
    exact absurd far (by decide)
  simp [exponent?, toLower_eq (.inr far), differs]

/-- No word for an unbounded or undefined number begins as digits do. -/
private theorem word_ne {first letter : Char} (start : PlainOrFar first) (rest : List Char) (word : List Char)
    (foreign : ¬ PlainOrFar letter) : String.ofList ((first :: rest).map Char.toLower) ≠ String.ofList (letter :: word) := by
  intro same
  have chars := congrArg String.toList same
  simp only [List.map_cons, String.toList_ofList, List.cons.injEq, toLower_eq start] at chars
  exact foreign (chars.1 ▸ start)

private theorem not_plainOrFar (letter : Char) (low : letter.toNat < 128) (plain : isPlainDigit letter = false) :
    ¬ PlainOrFar letter := by
  rintro (digit | far)
  · simp [plain] at digit
  · omega

/-- What a point at hand is followed by, or nothing where there is no point. -/
private def splitPlaces : List Char → List Char × List Char
  | '.' :: rest => rest.span isPlainDigit
  | rest => ([], rest)

/-- No sign and no word precedes digits, so all that decides is what the digits leave. -/
private theorem unsigned_eq {first : Char} (rest : List Char) {whole after places tail : List Char} (start : PlainOrFar first)
    (digits : (first :: rest).span isPlainDigit = (whole, after)) (point : splitPlaces after = (places, tail)) :
    unsigned? false (first :: rest) = if (whole ++ places).isEmpty then none
      else (exponent? tail).map fun exponent => .ofDecimal false (digitsValue (whole ++ places)) (exponent - places.length) := by
  have noInfinity : String.ofList ((first :: rest).map Char.toLower) ≠ "infinity" :=
    word_ne start _ _ (not_plainOrFar 'i' (by decide) (by decide))
  have noInf : String.ofList ((first :: rest).map Char.toLower) ≠ "inf" :=
    word_ne start _ _ (not_plainOrFar 'i' (by decide) (by decide))
  have noNan : String.ofList ((first :: rest).map Char.toLower) ≠ "nan" :=
    word_ne start _ _ (not_plainOrFar 'n' (by decide) (by decide))
  have opened : unsigned? false (first :: rest) = (if (whole ++ (splitPlaces after).1).isEmpty then none
      else (exponent? (splitPlaces after).2).map fun exponent =>
        .ofDecimal false (digitsValue (whole ++ (splitPlaces after).1)) (exponent - (splitPlaces after).1.length)) := by
    simp only [unsigned?, noInfinity, noInf, noNan, if_false, digits]
    rfl
  rw [opened, point]

private theorem isSome_unsigned {first : Char} (rest : List Char) {whole after places tail : List Char}
    (start : PlainOrFar first)
    (digits : (first :: rest).span isPlainDigit = (whole, after)) (point : splitPlaces after = (places, tail)) :
    (unsigned? false (first :: rest)).isSome = (!(whole ++ places).isEmpty && (exponent? tail).isSome) := by
  rw [unsigned_eq rest start digits point]
  cases (whole ++ places).isEmpty <;> simp

private theorem unsigned_of_far {front : List Char} {x : Char} (back : List Char) (plain : ∀ c ∈ front, isPlainDigit c = true)
    (far : 128 ≤ x.toNat) : unsigned? false (front ++ x :: back) = none := by
  have stops : (front ++ x :: back).span isPlainDigit = (front, x :: back) :=
    span_of_stop _ plain (by simp [not_plain_of_far far])
  have noPoint : splitPlaces (x :: back) = ([], x :: back) := by
    have differs : x ≠ '.' := by
      intro same
      subst same
      exact absurd far (by decide)
    simp [splitPlaces, differs]
  cases front with
  | nil =>
    have reading := isSome_unsigned _ (.inr far) stops noPoint
    simpa using reading
  | cons first more =>
    have reading := isSome_unsigned (more ++ x :: back) (.inl (plain first (by simp))) stops noPoint
    simpa [exponent_of_far far] using reading

private theorem isSome_unsigned_of_plain {whole : List Char} (some : whole ≠ [])
    (plain : ∀ c ∈ whole, isPlainDigit c = true) : (unsigned? false whole).isSome = true := by
  obtain ⟨first, more, rfl⟩ := List.exists_cons_of_ne_nil some
  have all : (first :: more).span isPlainDigit = (first :: more, []) := by
    simpa using span_of_stop [] plain (by simp)
  rw [isSome_unsigned _ (.inl (plain first (by simp))) all rfl]
  rfl

private theorem isSome_unsigned_of_point {whole places : List Char} (some : whole ≠ [])
    (plain : ∀ c ∈ whole, isPlainDigit c = true) (settled : ∀ c ∈ places, PlainOrFar c) :
    (unsigned? false (whole ++ '.' :: places)).isSome = true ↔ ∀ c ∈ places, isPlainDigit c = true := by
  obtain ⟨first, more, rfl⟩ := List.exists_cons_of_ne_nil some
  have stops : (first :: more ++ '.' :: places).span isPlainDigit = (first :: more, '.' :: places) :=
    span_of_stop _ plain (by simp +decide)
  have start : PlainOrFar first := .inl (plain first (by simp))
  by_cases all : ∀ c ∈ places, isPlainDigit c = true
  · have point : splitPlaces ('.' :: places) = (places, []) := by
      simpa [splitPlaces] using span_of_stop [] all (by simp)
    have reading := isSome_unsigned (more ++ '.' :: places) start stops point
    exact iff_of_true reading all
  · obtain ⟨front, x, back, rfl, before, far⟩ := first_far settled all
    have point : splitPlaces ('.' :: (front ++ x :: back)) = (front, x :: back) :=
      span_of_stop _ before (by simp [not_plain_of_far far])
    have reading := isSome_unsigned (more ++ '.' :: (front ++ x :: back)) start stops point
    simp only [exponent_of_far far, Option.isSome_none, Bool.and_false] at reading
    exact iff_of_false (Bool.eq_false_iff.mp reading) all

private theorem settled_of_pointed {chars : List Char} (shape : PointedDigits chars) :
    ∀ c ∈ chars.map plainForm, PlainOrFar c ∨ c = '.' := by
  obtain ⟨whole, _, digits, form⟩ := shape
  intro c member
  obtain ⟨d, inside, rfl⟩ := List.mem_map.mp member
  rcases form with rfl | ⟨places, fraction, rfl⟩
  · exact .inl (plainOrFar_of_digit (digits d inside))
  · rcases List.mem_append.mp inside with inside | inside
    · exact .inl (plainOrFar_of_digit (digits d inside))
    · rcases List.mem_cons.mp inside with rfl | inside
      · exact .inr (by decide)
      · exact .inl (plainOrFar_of_digit (fraction d inside))

private theorem not_margin {c : Char} (settled : PlainOrFar c ∨ c = '.') : isMargin c = false := by
  rw [Bool.eq_false_iff]
  intro margin
  rcases settled with (plain | far) | rfl
  · have bounds := (plainDigit_iff c).mp plain
    rcases (margin_iff c).mp margin with rfl | _
    · exact absurd bounds (by decide)
    · omega
  · rcases (margin_iff c).mp margin with rfl | _
    · exact absurd far (by decide)
    · omega
  · exact absurd margin (by decide)

private theorem splitSign_of_digit {first : Char} (start : PlainOrFar first) (rest : List Char) :
    splitSign (first :: rest) = (false, first :: rest) := by
  have positive : first ≠ '+' := by
    intro same
    subst same
    exact not_plainOrFar '+' (by decide) (by decide) start
  have unmarked : first ≠ '-' := by
    intro same
    subst same
    exact not_plainOrFar '-' (by decide) (by decide) start
  simp [splitSign, positive, unmarked]

private theorem numeral_eq {text : String} (shape : PointedDigits text.toList) :
    numeral? text = unsigned? false (text.toList.map plainForm) := by
  have settled := settled_of_pointed shape
  have joined : '_' ∉ text.toList.map plainForm := by
    intro member
    rcases settled '_' member with low | low
    · exact not_plainOrFar '_' (by decide) (by decide) low
    · exact absurd low (by decide)
  have positive : splitSign (text.toList.map plainForm) = (false, text.toList.map plainForm) := by
    obtain ⟨whole, some, digits, form⟩ := shape
    obtain ⟨first, more, rfl⟩ := List.exists_cons_of_ne_nil some
    have start : PlainOrFar (plainForm first) := plainOrFar_of_digit (digits first (by simp))
    rcases form with form | ⟨places, _, form⟩ <;> rw [form] <;> exact splitSign_of_digit start _
  rw [numeral?, withoutMargins_eq fun c member => not_margin (settled c member), withoutLowLines_eq joined]
  simp [positive]

theorem isDigit_of_plain {c : Char} (plain : isPlainDigit c = true) : isDigit c = true := by
  have bounds := (plainDigit_iff c).mp plain
  have inside : ∀ n < 58, 48 ≤ n → decimalDigits.holds n = true := by decide
  have held : decimalDigits.contains c = true := inside c.toNat (by omega) bounds.1
  simp [isDigit, held]

/-- A numeral of nothing but the first ten digits is an integer. -/
theorem numeral_of_plain {text : String} (filled : text.toList ≠ []) (plain : ∀ c ∈ text.toList, isPlainDigit c = true) :
    numeral? text = some (.ofDecimal false (digitsValue text.toList) 0) := by
  have same : text.toList.map plainForm = text.toList := by
    refine (List.map_congr_left ?_).trans (List.map_id _)
    intro c member
    have bounds := (plainDigit_iff c).mp (plain c member)
    exact if_pos (by omega)
  have shape : PointedDigits text.toList := ⟨_, filled, fun c member => isDigit_of_plain (plain c member), .inl rfl⟩
  rw [numeral_eq shape, same]
  generalize text.toList = chars at filled plain
  obtain ⟨first, more, rfl⟩ := List.exists_cons_of_ne_nil filled
  have all : (first :: more).span isPlainDigit = (first :: more, []) := by
    simpa using span_of_stop [] plain (by simp)
  rw [unsigned_eq more (.inl (plain first List.mem_cons_self)) all rfl]
  simp [exponent?]

theorem isPlainDigit_of_mem_toDigits {n : Nat} {c : Char} (member : c ∈ Nat.toDigits 10 n) : isPlainDigit c = true := by
  have digit := Nat.isDigit_of_mem_toDigits (by decide) (by decide) member
  simpa [Char.isDigit, isPlainDigit, Char.le_def] using digit

/-- The digits of an integer stand for it. -/
theorem numeral_toString (n : Nat) : numeral? (toString n) = some (.ofDecimal false n 0) := by
  have chars : (toString n).toList = Nat.toDigits 10 n := by rw [Nat.toString_eq_ofList_toDigits, String.toList_ofList]
  have value : digitsValue (Nat.toDigits 10 n) = n := Nat.ofDigitChars_eq_foldl.symm.trans Nat.ofDigitChars_ten_toDigits
  rw [numeral_of_plain, chars, value]
  · rw [chars]
    exact Nat.toDigits_ne_nil
  · rw [chars]
    exact fun c => isPlainDigit_of_mem_toDigits

private theorem all_plain_iff {chars : List Char} (digits : ∀ c ∈ chars, isDigit c = true) :
    (∀ c ∈ chars.map plainForm, isPlainDigit c = true) ↔ ∀ c ∈ chars, decimalValue? c ≠ none := by
  simp only [List.mem_map, forall_exists_index, and_imp, forall_apply_eq_imp_iff₂]
  apply forall₂_congr
  intro c member
  rw [ne_eq, ← far_iff_undecimal (digits c member)]
  constructor
  · intro plain far
    simp [not_plain_of_far far] at plain
  · intro near
    exact (plainOrFar_of_digit (digits c member)).resolve_right near

private theorem isSome_unsigned_iff {whole : List Char} (some : whole ≠ []) (settled : ∀ c ∈ whole, PlainOrFar c) :
    (unsigned? false whole).isSome = true ↔ ∀ c ∈ whole, isPlainDigit c = true := by
  by_cases all : ∀ c ∈ whole, isPlainDigit c = true
  · exact iff_of_true (isSome_unsigned_of_plain some all) all
  · obtain ⟨front, x, back, rfl, before, far⟩ := first_far settled all
    exact iff_of_false (by simp [unsigned_of_far back before far]) all

private theorem isSome_unsigned_point_iff {whole places : List Char} (some : whole ≠ [])
    (settled : ∀ c ∈ whole, PlainOrFar c) (fraction : ∀ c ∈ places, PlainOrFar c) :
    (unsigned? false (whole ++ '.' :: places)).isSome = true ↔
      (∀ c ∈ whole, isPlainDigit c = true) ∧ ∀ c ∈ places, isPlainDigit c = true := by
  by_cases all : ∀ c ∈ whole, isPlainDigit c = true
  · rw [isSome_unsigned_of_point some all fraction]
    exact ⟨fun plain => ⟨all, plain⟩, And.right⟩
  · obtain ⟨front, x, back, rfl, before, far⟩ := first_far settled all
    have unread : unsigned? false (front ++ x :: back ++ '.' :: places) = none := by
      simpa using unsigned_of_far (back ++ '.' :: places) before far
    rw [unread]
    exact iff_of_false (by simp) fun plain => all plain.1

/-- Digits stand for no number exactly if one of them belongs to no system of ten. -/
theorem numeral_eq_none_iff {text : String} (shape : PointedDigits text.toList) :
    numeral? text = none ↔ ∃ c ∈ text.toList, isDigit c = true ∧ decimalValue? c = none := by
  rw [numeral_eq shape, ← not_iff_not, ← ne_eq, Option.ne_none_iff_isSome]
  obtain ⟨whole, some, digits, form⟩ := shape
  have settled {chars : List Char} (digits : ∀ c ∈ chars, isDigit c = true) :
      ∀ c ∈ chars.map plainForm, PlainOrFar c := by
    simpa using fun c member => plainOrFar_of_digit (digits c member)
  rcases form with form | ⟨places, fraction, form⟩
  · rw [form, isSome_unsigned_iff (by simpa using some) (settled digits), all_plain_iff digits]
    simp only [not_exists, not_and]
    exact forall₂_congr fun c member => by simp [digits c member]
  · have point : (whole ++ '.' :: places).map plainForm = whole.map plainForm ++ '.' :: places.map plainForm := by
      simp [show plainForm '.' = '.' by decide]
    rw [form, point, isSome_unsigned_point_iff (by simpa using some) (settled digits) (settled fraction),
      all_plain_iff digits, all_plain_iff fraction]
    constructor
    · intro ⟨before, after⟩ ⟨c, member, digit, undecimal⟩
      rw [List.mem_append, List.mem_cons] at member
      rcases member with inside | rfl | inside
      · exact before c inside undecimal
      · exact absurd digit (by decide)
      · exact after c inside undecimal
    · intro none
      exact ⟨fun c member undecimal => none ⟨c, by simp [member], digits c member, undecimal⟩,
        fun c member undecimal => none ⟨c, by simp [member], fraction c member, undecimal⟩⟩

end Number
end Stencil
