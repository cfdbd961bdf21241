import Mathlib
import Stencil.Proofs.ConditionSpelling
import Stencil.Proofs.TokenSeam

/-! The grammar of tags. A tag is spelled by its form: the marks around it, the names in it and the blanks that may or must
stand between. A tag is read exactly as it is spelled, and what comes behind it is not looked at. -/

namespace Stencil
open Text Scan

namespace Token
open Expression (Kind Piece SpelledAll Parted Separate controlClose isIdentifierChar)

/-- How a tag that opens at a place is written, where it is given which pieces of a condition may touch. -/
inductive Spelled (touching : Option Kind → Kind → Prop) (place : Position) : Form → List Char → Prop
  | variable {lead name last : List Char} (blank : ∀ c ∈ lead ++ last, isBlank c = true) (filled : name ≠ [])
      (free : ∀ c ∈ name, isNameEnd c = false) :
      Spelled touching place (.variable (.ofList name)) (variableOpen ++ lead ++ name ++ last ++ variableClose)
  | inclusion {lead name last : List Char} (blank : ∀ c ∈ lead ++ last, isBlank c = true) (filled : name ≠ [])
      (free : ∀ c ∈ name, isNameEnd c = false) :
      Spelled touching place (.inclusion (.ofList name)) (inclusionOpen ++ lead ++ name ++ last ++ inclusionClose)
  | otherwise {lead last : List Char} (blank : ∀ c ∈ lead ++ last, isBlank c = true) :
      Spelled touching place .otherwise (controlOpen ++ lead ++ Keyword.otherwise.text.toList ++ (last ++ controlClose))
  | close {lead last : List Char} (blank : ∀ c ∈ lead ++ last, isBlank c = true) :
      Spelled touching place .close (controlOpen ++ lead ++ Keyword.close.text.toList ++ (last ++ controlClose))
  | loop {lead ahead iterable between behind binding last : List Char}
      (blank : ∀ c ∈ lead ++ ahead ++ between ++ behind ++ last, isBlank c = true)
      (filled : iterable ≠ []) (free : ∀ c ∈ iterable, isBlank c = false ∧ c ≠ '%')
      (apart : Stops isIdentifierChar iterable ∨ ahead ≠ []) (parted : between ≠ []) (parted' : behind ≠ [])
      (filled' : binding ≠ []) (plain : ∀ c ∈ binding, isBindingChar c = true) :
      Spelled touching place (.loop (.ofList iterable) (.ofList binding)) (controlOpen ++ lead ++ Keyword.loop.text.toList ++
        (ahead ++ iterable ++ between ++ ['a', 's'] ++ behind ++ binding ++ last ++ controlClose))
  | choice {lead text : List Char} {pieces : List Piece} (blank : ∀ c ∈ lead, isBlank c = true)
      (parted : Parted touching none pieces text)
      (spelled : SpelledAll touching (place.past (controlOpen ++ lead ++ Keyword.choice.text.toList)) pieces text) :
      Spelled touching place (.choice pieces) (controlOpen ++ lead ++ Keyword.choice.text.toList ++ text)

section
variable {α : Type}

private theorem exactly_filled {keep : Char → Bool} {next : String → Scan α} {shape : String → Shape α} (expected : String)
    (rest : ∀ word, Exactly (next word) (shape word)) : Exactly (do
      let word ← readWhile keep
      if word = "" then unexpected expected else next word) fun place text behind value =>
        ∃ word back, text = word ++ back ∧ word ≠ [] ∧ (∀ c ∈ word, keep c = true) ∧ Stops keep (back ++ behind) ∧
          shape (.ofList word) (place.past word) back behind value := by
  have read : Exactly (do let word ← readWhile keep; if word = "" then unexpected expected else next word) _ :=
    (exactly_readWhile keep).bind fun word => show Exactly _ (fun place text behind value => word ≠ "" ∧
      shape word place text behind value) by
        intro cursor
        split
        next empty => exact exactlyAt_never (fun value after => unexpected_ne_ok _ cursor after value) (by simp [empty])
        next some => simpa [some] using rest word cursor
  refine read.congr ?_
  intro place text behind value
  constructor
  · rintro ⟨_, word, back, rfl, ⟨rfl, each, stops⟩, filled, fits⟩
    exact ⟨word, back, rfl, by simpa using filled, each, stops, fits⟩
  · rintro ⟨word, back, rfl, filled, each, stops, fits⟩
    exact ⟨_, word, back, rfl, ⟨rfl, each, stops⟩, by simpa using filled, fits⟩

private theorem exactly_closing {literal : List Char} (solid : ∃ c ∈ literal.head?, isBlank c = false) (value : α) :
    Exactly (do skipBlanks; expect literal; return value) fun _ text _ made =>
      made = value ∧ ∃ gap, text = gap ++ literal ∧ ∀ c ∈ gap, isBlank c = true := by
  have read : Exactly (do skipBlanks; expect literal; return value) _ :=
    exactly_skipBlanks.bind fun _ => (exactly_expect literal).bind fun _ => exactly_pure value
  obtain ⟨c, first, solid⟩ := solid
  obtain ⟨more, same⟩ := List.head?_eq_some_iff.mp first
  refine read.congr ?_
  intro place text behind made
  constructor
  · rintro ⟨_, gap, _, rfl, ⟨blank, _⟩, _, _, _, rfl, rfl, rfl, rfl⟩
    exact ⟨rfl, gap, by simp, blank⟩
  · rintro ⟨rfl, gap, rfl, blank⟩
    exact ⟨(), gap, literal, rfl, ⟨blank, by simp [same, stops_cons, solid]⟩, (), literal, [], by simp, rfl, rfl, rfl⟩

private theorem exactly_named {opening closing : List Char} (marks : closing.head? = some '}') (expected : String)
    (form : String → Form) : Exactly (do
      expect opening
      skipBlanks
      let name ← readName expected
      skipBlanks
      expect closing
      return form name) fun _ text _ made => ∃ lead name last, (∀ c ∈ lead ++ last, isBlank c = true) ∧ name ≠ [] ∧
        (∀ c ∈ name, isNameEnd c = false) ∧ made = form (.ofList name) ∧
        text = opening ++ lead ++ name ++ last ++ closing := by
  have solid : ∃ c ∈ closing.head?, isBlank c = false := ⟨'}', marks, by decide⟩
  have named : Exactly (readName expected) _ := exactly_filled expected exactly_pure
  have read : Exactly (do
      expect opening; skipBlanks; let name ← readName expected; skipBlanks; expect closing; return form name) _ :=
    (exactly_expect opening).bind fun _ => exactly_skipBlanks.bind fun _ => named.bind fun name =>
      exactly_closing solid (form name)
  obtain ⟨more, same⟩ := List.head?_eq_some_iff.mp marks
  refine read.congr ?_
  intro place text behind made
  constructor
  · rintro ⟨_, _, _, rfl, rfl, _, lead, _, rfl, ⟨blank, _⟩, _, _, _, rfl, ⟨name, _, rfl, filled, free, _, rfl, rfl⟩, rfl, last,
      rfl, blank'⟩
    refine ⟨lead, name, last, List.forall_mem_append.mpr ⟨blank, blank'⟩, filled, ?_, rfl, by simp⟩
    simpa using free
  · rintro ⟨lead, name, last, blank, filled, free, rfl, rfl⟩
    obtain ⟨blank, blank'⟩ := List.forall_mem_append.mp blank
    refine ⟨(), opening, lead ++ name ++ last ++ closing, by simp, rfl, (), lead, name ++ last ++ closing, by simp,
      ⟨blank, ?_⟩, _, name, last ++ closing, by simp, ⟨name, [], by simp, filled, by simpa using free, ?_, rfl, rfl⟩, rfl, last,
      rfl, blank'⟩
    · simp only [List.append_assoc]
      refine .append (fun c member => ?_) fun empty => absurd empty filled
      have inside := free c member
      rw [isNameEnd, Bool.or_eq_false_iff] at inside
      exact inside.1
    · simp only [List.nil_append, List.append_assoc]
      exact .append (fun c member => by simp [isNameEnd, blank' c member]) fun _ => by simp [same, stops_cons, isNameEnd]

private theorem isIdentifierChar_of_binding {c : Char} (plain : isBindingChar c = true) : isIdentifierChar c = true := by
  simp only [isBindingChar, Bool.or_eq_true] at plain
  rw [isIdentifierChar, Bool.or_eq_true, Bool.or_eq_true]
  exact .inl plain

private theorem isBlank_of_binding {c : Char} (plain : isBindingChar c = true) : isBlank c = false :=
  Expression.isBlank_of_identifierChar (isIdentifierChar_of_binding plain)

private theorem exactly_readBinding : Exactly readBinding fun _ text rest value => value = .ofList text ∧ text ≠ [] ∧
    (∀ c ∈ text, isBindingChar c = true) ∧ Stops (fun c => !isBlank c && c ≠ '%') rest := by
  have look (binding : String) : Exactly (do
      let cursor ← get
      if binding = "" || cursor.next?.any fun c => !isBlank c && c ≠ '%' then unexpected "a binding name"
      else return binding) fun _ text rest value => text = [] ∧ value = binding ∧ binding ≠ "" ∧
        Stops (fun c => !isBlank c && c ≠ '%') rest := by
    intro cursor
    apply ExactlyAt.after_get
    have stops_iff : cursor.next?.any (fun c => !isBlank c && c ≠ '%') = false ↔
        Stops (fun c => !isBlank c && c ≠ '%') cursor.rest := by
      cases here : cursor.rest <;> simp [Cursor.next?, here, Stops]
    split
    next wrong =>
      apply exactlyAt_never (fun value after => unexpected_ne_ok _ cursor after value)
      rintro _ rest value ahead ⟨rfl, _, filled, stops⟩
      rw [List.nil_append] at ahead
      rw [← ahead, ← stops_iff] at stops
      rcases Bool.or_eq_true_iff.mp wrong with empty | other
      · exact filled (of_decide_eq_true empty)
      · exact absurd other (Bool.eq_false_iff.mp stops)
    next fine =>
      rw [Bool.not_eq_true, Bool.or_eq_false_iff, stops_iff] at fine
      refine (exactly_pure binding cursor).congr ?_
      intro text rest value ahead
      constructor
      · rintro ⟨rfl, rfl⟩
        exact ⟨rfl, rfl, by simpa using fine.1, by simpa [ahead] using fine.2⟩
      · rintro ⟨rfl, rfl, _⟩
        exact ⟨rfl, rfl⟩
  have read : Exactly readBinding _ := (exactly_readWhile isBindingChar).bind look
  refine read.congr ?_
  intro place text rest value
  constructor
  · rintro ⟨_, binding, _, rfl, ⟨rfl, plain, _⟩, rfl, rfl, filled, stops⟩
    exact ⟨by simp, by simpa using filled, by simpa using plain, stops⟩
  · rintro ⟨rfl, filled, plain, stops⟩
    refine ⟨_, text, [], by simp, ⟨rfl, plain, ?_⟩, rfl, rfl, by simpa using filled, stops⟩
    intro c ahead
    have first := stops c ahead
    rw [Bool.eq_false_iff]
    intro goes
    obtain rfl : c = '%' := by simpa [isBlank_of_binding goes] using first
    cases goes

private theorem exactly_blankAhead {step : Scan α} {shape : Shape α} (takes : Exactly step shape) (expected : String) :
    Exactly (do if (← get).next?.any isBlank then step else unexpected expected) fun place text rest value =>
      ¬ Stops isBlank (text ++ rest) ∧ shape place text rest value := by
  intro cursor
  apply ExactlyAt.after_get
  have stops_iff : cursor.next?.any isBlank = false ↔ Stops isBlank cursor.rest := by
    cases here : cursor.rest <;> simp [Cursor.next?, here, Stops]
  split
  next blank =>
    refine (takes cursor).congr ?_
    intro text rest value ahead
    rw [← ahead, ← stops_iff, blank]
    simp
  next solid =>
    apply exactlyAt_never (fun value after => unexpected_ne_ok _ cursor after value)
    rintro text rest value ahead ⟨blank, _⟩
    rw [← ahead, ← stops_iff] at blank
    exact blank (by simpa using solid)

private def Follows (keyword : Keyword) (place : Position) (text : List Char) (form : Form) : Prop :=
  match keyword with
  | .loop => ∃ ahead iterable between behind binding last,
      (∀ c ∈ ahead ++ between ++ behind ++ last, isBlank c = true) ∧ iterable ≠ [] ∧
        (∀ c ∈ iterable, isBlank c = false ∧ c ≠ '%') ∧ between ≠ [] ∧ behind ≠ [] ∧ binding ≠ [] ∧
        (∀ c ∈ binding, isBindingChar c = true) ∧ form = .loop (.ofList iterable) (.ofList binding) ∧
        text = ahead ++ iterable ++ between ++ ['a', 's'] ++ behind ++ binding ++ last ++ controlClose
  | .choice => ∃ pieces, form = .choice pieces ∧ SpelledAll Separate place pieces text
  | .otherwise => form = .otherwise ∧ ∃ gap, text = gap ++ controlClose ∧ ∀ c ∈ gap, isBlank c = true
  | .close => form = .close ∧ ∃ gap, text = gap ++ controlClose ∧ ∀ c ∈ gap, isBlank c = true

private theorem exactly_readLoop : Exactly readLoop fun place text _ form => Follows .loop place text form := by
  have solid : ∃ c ∈ controlClose.head?, isBlank c = false := ⟨'%', rfl, by decide⟩
  have closing (iterable binding : String) := exactly_closing solid (Form.loop iterable binding)
  have read : Exactly readLoop _ := exactly_skipBlanks.bind fun _ => exactly_filled "an iterable name" fun iterable =>
    exactly_skipBlanks.bind fun _ => (exactly_expect ['a', 's']).bind fun _ => exactly_blankAhead
      (exactly_skipBlanks.bind fun _ => exactly_readBinding.bind fun binding => closing iterable binding) "whitespace after 'as'"
  refine read.congr ?_
  intro place text rest made
  constructor
  · rintro ⟨_, ahead, _, rfl, ⟨one, _⟩, iterable, _, rfl, filled, free, stops, _, between, _, rfl, ⟨two, _⟩, _, _, _, rfl,
      rfl, parted, _, behind, _, rfl, ⟨three, _⟩, _, binding, _, rfl, ⟨rfl, filled', plain, _⟩, rfl, last, rfl, four⟩
    refine ⟨ahead, iterable, between, behind, binding, last, ?_, filled, by simpa using free, ?_, ?_, filled', plain, rfl, by simp⟩
    · simp only [List.forall_mem_append]
      exact ⟨⟨⟨one, two⟩, three⟩, four⟩
    · rintro rfl
      cases stops_cons.mp stops
    · rintro rfl
      rw [List.nil_append, List.append_assoc] at parted
      exact parted (.append (fun c member => isBlank_of_binding (plain c member)) fun empty => absurd empty filled')
  · rintro ⟨ahead, iterable, between, behind, binding, last, blank, filled, free, parted, parted', filled', plain, rfl, rfl⟩
    simp only [List.forall_mem_append] at blank
    obtain ⟨⟨⟨one, two⟩, three⟩, four⟩ := blank
    refine ⟨(), ahead, iterable ++ between ++ ['a', 's'] ++ behind ++ binding ++ last ++ controlClose, by simp, ⟨one, ?_⟩,
      iterable, between ++ ['a', 's'] ++ behind ++ binding ++ last ++ controlClose, by simp, filled, by simpa using free, ?_,
      (), between, ['a', 's'] ++ behind ++ binding ++ last ++ controlClose, by simp, ⟨two, stops_cons.mpr (by decide)⟩,
      (), ['a', 's'], behind ++ binding ++ last ++ controlClose, by simp, rfl, ?_,
      (), behind, binding ++ last ++ controlClose, by simp, ⟨three, ?_⟩,
      _, binding, last ++ controlClose, by simp, ⟨rfl, filled', plain, ?_⟩, rfl, last, rfl, four⟩
    · simp only [List.append_assoc]
      exact .append (fun c member => (free c member).1) fun empty => absurd empty filled
    · simp only [List.append_assoc]
      exact .append (fun c member => by simp [two c member]) fun empty => absurd empty parted
    · obtain ⟨c, more, rfl⟩ := List.exists_cons_of_ne_nil parted'
      simp [stops_cons, three c List.mem_cons_self]
    · simp only [List.append_assoc]
      exact .append (fun c member => isBlank_of_binding (plain c member)) fun empty => absurd empty filled'
    · rw [List.append_assoc]
      exact .append (fun c member => by simp [four c member]) fun _ => stops_cons.mpr (by decide)

private theorem exactly_readKeyword (keyword : Keyword) :
    Exactly (readKeyword keyword) fun place text _ form => Follows keyword place text form := by
  have solid : ∃ c ∈ controlClose.head?, isBlank c = false := ⟨'%', rfl, by decide⟩
  cases keyword with
  | loop => exact exactly_readLoop
  | otherwise => exact exactly_closing solid _
  | close => exact exactly_closing solid _
  | choice =>
    have read : Exactly (readKeyword .choice) _ := Expression.exactly_readAll.bind fun pieces => exactly_pure _
    refine read.congr ?_
    intro place text rest form
    constructor
    · rintro ⟨pieces, front, _, rfl, spelled, rfl, rfl⟩
      exact ⟨pieces, rfl, by simpa using spelled⟩
    · rintro ⟨pieces, rfl, spelled⟩
      exact ⟨pieces, text, [], by simp, spelled, rfl, rfl⟩

private theorem ofText_eq_some_iff {word : String} {keyword : Keyword} :
    Keyword.ofText? word = some keyword ↔ keyword.text = word := by
  constructor
  · intro known
    simpa using List.find?_some known
  · rintro rfl
    cases keyword <;> decide

private theorem identifierChars_of_keyword (keyword : Keyword) : ∀ c ∈ keyword.text.toList, isIdentifierChar c = true := by
  rw [← List.all_eq_true]
  cases keyword <;> decide

private theorem exactly_word (position : Position) : Exactly (do
    let word ← readWhile isIdentifierChar
    match Keyword.ofText? word with
    | some keyword => readKeyword keyword
    | none => failAt position (.unknownKeyword word (Keyword.all.map Keyword.text))) fun place text rest form =>
      ∃ keyword more, text = keyword.text.toList ++ more ∧ Stops isIdentifierChar (more ++ rest) ∧
        Follows keyword (place.past keyword.text.toList) more form := by
  have known (word : String) : Exactly (match Keyword.ofText? word with
      | some keyword => readKeyword keyword
      | none => failAt position (.unknownKeyword word (Keyword.all.map Keyword.text))) fun place text rest form =>
        ∃ keyword, Keyword.ofText? word = some keyword ∧ Follows keyword place text form := by
    intro cursor
    cases known : Keyword.ofText? word with
    | some keyword => simpa using exactly_readKeyword keyword cursor
    | none =>
      refine exactlyAt_never (fun form after done => ?_) (by simp)
      cases done
  refine ((exactly_readWhile isIdentifierChar).bind known).congr ?_
  intro place text rest form
  constructor
  · rintro ⟨_, word, more, rfl, ⟨rfl, _, stops⟩, keyword, known, follows⟩
    obtain rfl : keyword.text.toList = word := by rw [ofText_eq_some_iff.mp known, String.toList_ofList]
    exact ⟨keyword, more, rfl, stops, follows⟩
  · rintro ⟨keyword, more, rfl, stops, follows⟩
    refine ⟨_, keyword.text.toList, more, rfl, ⟨rfl, identifierChars_of_keyword keyword, stops⟩, keyword, ?_, follows⟩
    rw [String.ofList_toList, ofText_eq_some_iff]

private theorem exactly_readControl : Exactly readControl fun place text rest form => ∃ lead keyword more,
    text = controlOpen ++ lead ++ keyword.text.toList ++ more ∧ (∀ c ∈ lead, isBlank c = true) ∧
      Stops isIdentifierChar (more ++ rest) ∧
      Follows keyword (place.past (controlOpen ++ lead ++ keyword.text.toList)) more form := by
  have rest : Exactly (do
      let cursor ← get
      if cursor.atEnd then fail (.endOfInput .keyword)
      else
        let word ← readWhile isIdentifierChar
        match Keyword.ofText? word with
        | some keyword => readKeyword keyword
        | none => failAt cursor.position (.unknownKeyword word (Keyword.all.map Keyword.text))) fun place text rest form =>
          ∃ keyword more, text = keyword.text.toList ++ more ∧ Stops isIdentifierChar (more ++ rest) ∧
            Follows keyword (place.past keyword.text.toList) more form := by
    intro cursor
    apply ExactlyAt.after_get
    split
    next ended =>
      apply exactlyAt_never (fun form after => fail_ne_ok _ cursor after form)
      rintro _ rest form ahead ⟨keyword, more, rfl, _⟩
      rw [Cursor.atEnd, ahead] at ended
      cases keyword <;> cases ended
    · exact exactly_word cursor.position cursor
  have read : Exactly readControl _ := (exactly_expect controlOpen).bind fun _ => exactly_skipBlanks.bind fun _ => rest
  refine read.congr ?_
  intro place text rest form
  constructor
  · rintro ⟨_, _, _, rfl, rfl, _, lead, _, rfl, ⟨blank, _⟩, keyword, more, rfl, stops, follows⟩
    refine ⟨lead, keyword, more, by simp, blank, stops, ?_⟩
    rwa [Position.past_append, Position.past_append]
  · rintro ⟨lead, keyword, more, rfl, blank, stops, follows⟩
    refine ⟨(), controlOpen, lead ++ keyword.text.toList ++ more, by simp, rfl, (), lead, keyword.text.toList ++ more, by simp,
      ⟨blank, ?_⟩, keyword, more, rfl, stops, ?_⟩
    · cases keyword <;> exact stops_cons.mpr (by decide)
    · rwa [Position.past_append, Position.past_append] at follows

end

section
variable {place : Position} {text rest : List Char} {form : Form}

/-- A control tag is one whose keyword ends where it does, with what may follow it. -/
private theorem spelled_control_iff : (∃ lead keyword more, text = controlOpen ++ lead ++ keyword.text.toList ++ more ∧
    (∀ c ∈ lead, isBlank c = true) ∧ Stops isIdentifierChar (more ++ rest) ∧
      Follows keyword (place.past (controlOpen ++ lead ++ keyword.text.toList)) more form) ↔
    controlOpen <+: text ∧ Spelled Separate place form text := by
  have blanks {gap : List Char} (blank : ∀ c ∈ gap, isBlank c = true) : ∀ c ∈ gap, isIdentifierChar c = false :=
    fun c member => Expression.isIdentifierChar_of_blank (blank c member)
  constructor
  · rintro ⟨lead, keyword, more, rfl, blank, stops, follows⟩
    refine ⟨by simp, ?_⟩
    cases keyword with
    | loop =>
      obtain ⟨ahead, iterable, between, behind, binding, last, blank', filled, free, parted, parted', filled', plain, rfl, rfl⟩ :=
        follows
      simp only [List.forall_mem_append] at blank'
      obtain ⟨⟨⟨one, two⟩, three⟩, four⟩ := blank'
      refine .loop ?_ filled free ?_ parted parted' filled' plain
      · simp only [List.forall_mem_append]
        exact ⟨⟨⟨⟨blank, one⟩, two⟩, three⟩, four⟩
      · cases ahead with
        | cons c ahead => exact .inr (by simp)
        | nil =>
          obtain ⟨c, others, rfl⟩ := List.exists_cons_of_ne_nil filled
          exact .inl (stops_cons.mpr (stops_cons.mp stops))
    | choice =>
      obtain ⟨pieces, rfl, spelled⟩ := follows
      exact .choice blank (spelled.stops_identifier_iff.mp stops) spelled
    | otherwise =>
      obtain ⟨rfl, gap, rfl, blank'⟩ := follows
      exact .otherwise (List.forall_mem_append.mpr ⟨blank, blank'⟩)
    | close =>
      obtain ⟨rfl, gap, rfl, blank'⟩ := follows
      exact .close (List.forall_mem_append.mpr ⟨blank, blank'⟩)
  · rintro ⟨opens, spelled⟩
    cases spelled with
    | «variable» => simp [controlOpen, variableOpen] at opens
    | inclusion => simp [controlOpen, inclusionOpen] at opens
    | loop blank filled free apart parted parted' filled' plain =>
      simp only [List.forall_mem_append] at blank
      obtain ⟨⟨⟨⟨blank, one⟩, two⟩, three⟩, four⟩ := blank
      refine ⟨_, .loop, _, rfl, blank, ?_, _, _, _, _, _, _, ?_, filled, free, parted, parted', filled', plain, rfl, rfl⟩
      · simp only [List.append_assoc]
        refine .append (blanks one) fun empty => ?_
        obtain ⟨c, others, rfl⟩ := List.exists_cons_of_ne_nil filled
        exact stops_cons.mpr (stops_cons.mp (apart.resolve_right (absurd empty)))
      · simp only [List.forall_mem_append]
        exact ⟨⟨⟨one, two⟩, three⟩, four⟩
    | choice blank parted spelled => exact ⟨_, .choice, _, rfl, blank, spelled.stops_identifier_iff.mpr parted, _, rfl, spelled⟩
    | otherwise blank =>
      obtain ⟨blank, blank'⟩ := List.forall_mem_append.mp blank
      refine ⟨_, .otherwise, _, rfl, blank, ?_, rfl, _, rfl, blank'⟩
      rw [List.append_assoc]
      exact .append (blanks blank') fun _ => stops_cons.mpr (by decide)
    | close blank =>
      obtain ⟨blank, blank'⟩ := List.forall_mem_append.mp blank
      refine ⟨_, .close, _, rfl, blank, ?_, rfl, _, rfl, blank'⟩
      rw [List.append_assoc]
      exact .append (blanks blank') fun _ => stops_cons.mpr (by decide)

end

variable {cursor : Cursor}

/-- A tag is read exactly as it is spelled. -/
theorem exactlyAt_readForm (opens : opensTag cursor.rest = true) :
    ExactlyAt readForm (fun place text _ form => Spelled Separate place form text) cursor := by
  apply ExactlyAt.after_get
  rw [opensTag_eq, Bool.or_eq_true, Bool.or_eq_true] at opens
  split
  next isVariable =>
    refine (exactly_named rfl _ _ cursor).congr ?_
    intro text rest form ahead
    constructor
    · rintro ⟨lead, name, last, blank, filled, free, rfl, rfl⟩
      exact .variable blank filled free
    · intro spelled
      rw [Cursor.startsWith, ahead] at isVariable
      cases spelled with
      | «variable» blank filled free => exact ⟨_, _, _, blank, filled, free, rfl, rfl⟩
      | _ => simp [variableOpen, controlOpen, inclusionOpen] at isVariable
  split
  next isControl =>
    refine (exactly_readControl cursor).congr ?_
    intro text rest form ahead
    rw [spelled_control_iff, and_iff_right_iff_imp]
    intro spelled
    rw [Cursor.startsWith, ahead] at isControl
    cases spelled with
    | «variable» => simp [variableOpen, controlOpen] at isControl
    | inclusion => simp [inclusionOpen, controlOpen] at isControl
    | _ => simp
  next notVariable notControl =>
    have isInclusion : cursor.startsWith inclusionOpen = true :=
      opens.resolve_left fun other => other.elim notVariable notControl
    rw [if_pos isInclusion]
    refine (exactly_named rfl _ _ cursor).congr ?_
    intro text rest form ahead
    constructor
    · rintro ⟨lead, name, last, blank, filled, free, rfl, rfl⟩
      exact .inclusion blank filled free
    · intro spelled
      rw [Cursor.startsWith, ahead] at isInclusion
      cases spelled with
      | inclusion blank filled free => exact ⟨_, _, _, blank, filled, free, rfl, rfl⟩
      | _ => simp [variableOpen, controlOpen, inclusionOpen] at isInclusion

end Token

/-- Reading a token where a tag opens gives this tag and stops right behind this text exactly if the text spells the tag,
whatever comes after it. -/
theorem Lexer.next_iff_spelled {cursor : Cursor} {text rest : List Char} (ahead : cursor.rest = text ++ rest)
    (opens : Token.opensTag text = true) (token : Token) :
    next ⟨cursor, none⟩ = .ok (some token) ⟨cursor.forwardBy text.length, none⟩ ↔
      token.position = some cursor.position ∧ Token.Spelled Expression.Separate cursor.position token.form text := by
  have long : 2 ≤ text.length := by
    rcases text with _ | ⟨c, _ | ⟨d, text⟩⟩
    · cases opens
    · simp [Token.opensTag] at opens
    · simp
  have further : Token.opensTag cursor.rest = true := by rw [ahead, Token.opensTag_append text long, opens]
  rw [← (Token.exactlyAt_readForm further).reads_iff ahead, next_ok_iff]
  constructor
  · rintro ⟨there, read, same⟩
    cases same
    obtain ⟨_, form, rfl, formed⟩ := Token.read_some read
    exact ⟨rfl, formed⟩
  · rintro ⟨place, formed⟩
    obtain ⟨position, form⟩ := token
    cases place
    have filled : cursor.rest ≠ [] := by
      rw [ahead]
      exact List.append_ne_nil_of_left_ne_nil (List.ne_nil_of_length_pos (by omega)) rest
    exact ⟨_, Token.read_form filled formed, rfl⟩

/-- A tag in the second line, in which the mark that ends it stands in quotes before. -/
def quotedEnd : String := "\n\x7b%if x=='%\x7d'&&1.5%\x7dy"

theorem Lexer.next_iff_spelled_quotedEnd :
    (Cursor.into rootName quotedEnd 1).rest = (quotedEnd.toList.drop 1).take 19 ++ ['y'] ∧
      Token.opensTag ((quotedEnd.toList.drop 1).take 19) = true ∧
      next ⟨.into rootName quotedEnd 1, none⟩ = .ok (some ⟨some ⟨2, 0⟩, .choice [⟨.identifier, "x", some ⟨2, 5⟩⟩,
        ⟨.operator, "==", some ⟨2, 6⟩⟩, ⟨.string, "%\x7d", some ⟨2, 8⟩⟩, ⟨.operator, "&&", some ⟨2, 12⟩⟩,
        ⟨.number, "1.5", some ⟨2, 14⟩⟩]⟩) ⟨.into rootName quotedEnd 20, none⟩ ∧
      Token.Spelled Expression.Separate ⟨2, 0⟩ (.choice [⟨.identifier, "x", some ⟨2, 5⟩⟩,
        ⟨.operator, "==", some ⟨2, 6⟩⟩, ⟨.string, "%\x7d", some ⟨2, 8⟩⟩, ⟨.operator, "&&", some ⟨2, 12⟩⟩,
        ⟨.number, "1.5", some ⟨2, 14⟩⟩]) ((quotedEnd.toList.drop 1).take 19) := by
  have ahead : (Cursor.into rootName quotedEnd 1).rest = (quotedEnd.toList.drop 1).take 19 ++ ['y'] := by cbv
  have opens : Token.opensTag ((quotedEnd.toList.drop 1).take 19) = true := by cbv
  have read : next ⟨.into rootName quotedEnd 1, none⟩ = .ok (some ⟨some ⟨2, 0⟩, .choice [⟨.identifier, "x", some ⟨2, 5⟩⟩,
      ⟨.operator, "==", some ⟨2, 6⟩⟩, ⟨.string, "%\x7d", some ⟨2, 8⟩⟩, ⟨.operator, "&&", some ⟨2, 12⟩⟩,
      ⟨.number, "1.5", some ⟨2, 14⟩⟩]⟩) ⟨.into rootName quotedEnd 20, none⟩ := by cbv
  exact ⟨ahead, opens, read, ((next_iff_spelled ahead opens _).mp read).2⟩

def tight : String := "\x7b% ifx %\x7d"

/-- Blanks between pieces cannot be left out at will: the keyword takes in the name behind it. -/
theorem Lexer.next_tight :
    Token.Spelled (fun _ _ => True) ⟨1, 0⟩ (.choice [⟨.identifier, "x", some ⟨1, 5⟩⟩]) tight.toList ∧
      next ⟨.into rootName tight 0, none⟩ = .error ⟨.unknownKeyword "ifx" ["for", "if", "else", "end"], some ⟨1, 3⟩,
        some rootName⟩ ⟨.into rootName tight 6, none⟩ := by
  have named : Expression.Spelled .identifier "x" ['x'] := @Expression.Spelled.identifier 'x' [] (by decide) (by simp)
  have pieces : Expression.SpelledAll (fun _ _ => True) ⟨1, 5⟩ [⟨.identifier, "x", some ⟨1, 5⟩⟩] ['x', ' ', '%', '\x7d'] :=
    @Expression.SpelledAll.piece _ _ [] _ _ ⟨.identifier, "x", some ⟨1, 5⟩⟩ _ (by simp) rfl named (fun _ _ _ => trivial)
      (@Expression.SpelledAll.close _ _ [' '] (List.forall_mem_singleton.mpr rfl))
  have tag : Token.Spelled (fun _ _ => True) ⟨1, 0⟩ (.choice [⟨.identifier, "x", some ⟨1, 5⟩⟩])
      (Token.controlOpen ++ [' '] ++ Token.Keyword.choice.text.toList ++ ['x', ' ', '%', '\x7d']) :=
    .choice (List.forall_mem_singleton.mpr rfl) (fun _ _ _ => trivial) pieces
  exact ⟨tag, by cbv⟩

end Stencil
