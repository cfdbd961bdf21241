import Stencil.Proofs.ReadingShapes
import Stencil.Proofs.TokenSeam

/-! Where readers fail. A reader goes on from where it began, also if it fails, and it fails over a place that it has come to:
what its diagnostic says is to be seen in the characters from there on. -/

namespace Stencil
open Diagnostic Text

namespace Cursor

/-- A place further on in the same source, or the same place. -/
def Ahead (cursor there : Cursor) : Prop := ∃ count, count ≤ cursor.rest.length ∧ there = cursor.forwardBy count

theorem Ahead.refl (cursor : Cursor) : cursor.Ahead cursor := ⟨0, Nat.zero_le _, rfl⟩

theorem Ahead.trans {cursor there further : Cursor} (first : cursor.Ahead there) (more : there.Ahead further) :
    cursor.Ahead further := by
  obtain ⟨count, inside, rfl⟩ := first
  obtain ⟨others, within, rfl⟩ := more
  rw [rest_forwardBy, List.length_drop] at within
  exact ⟨count + others, by omega, (forwardBy_add ..).symm⟩

theorem ahead_pastWhile (keep : Char → Bool) (cursor : Cursor) : cursor.Ahead (cursor.pastWhile keep) :=
  ⟨_, (List.takeWhile_sublist keep).length_le, rfl⟩

@[simp] theorem source_forwardBy (count : Nat) (cursor : Cursor) : (cursor.forwardBy count).source = cursor.source := by
  induction count generalizing cursor with
  | zero => rfl
  | succ count ih =>
    rw [forwardBy, ih, forward]
    split <;> rfl

end Cursor

/-- Of what a reader finds wrong: how that shows in the characters from the place on. -/
def Diagnostic.Cause.Shows (ahead : List Char) : Cause → Prop
  | .endOfInput _ => ahead = []
  | .unexpectedCharacter _ found => found.toList = ahead.take 1
  | .unknownKeyword keyword _ => keyword.toList <+: ahead
  | .unknownOperator _ _ => ∃ first rest, ahead = first :: rest ∧ Expression.isOperatorStart first = true ∧
      rest.head? ≠ some (Expression.partner first)
  | _ => False

/-- The diagnostic is about this place. -/
structure Diagnostic.At (problem : Diagnostic) (there : Cursor) : Prop where
  position : problem.position = some there.position
  source : problem.source = some there.source
  shows : problem.cause.Shows there.rest

namespace Scan
variable {α β : Type} {cursor : Cursor}

/-- Reading goes on from here, or stops further on and fails over a place on the way. -/
structure Points (step : Scan α) (cursor : Cursor) : Prop where
  moves : ∀ value after, step cursor = .ok value after → cursor.Ahead after
  tells : ∀ problem after, step cursor = .error problem after →
    cursor.Ahead after ∧ ∃ there, cursor.Ahead there ∧ problem.At there

theorem Points.bind {step : Scan α} {next : α → Scan β} (first : Points step cursor)
    (rest : ∀ value after, step cursor = .ok value after → Points (next value) after) : Points (step >>= next) cursor := by
  constructor
  · intro value after done
    obtain ⟨middle, between, taken, done⟩ := bind_eq_ok done
    exact (first.moves middle between taken).trans ((rest middle between taken).moves value after done)
  · intro problem after failed
    cases taken : step cursor with
    | error earlier stopped =>
      rw [bind_error taken] at failed
      cases failed
      exact first.tells _ _ taken
    | ok value between =>
      rw [bind_ok taken] at failed
      have moved := first.moves value between taken
      obtain ⟨stopped, there, ahead, about⟩ := (rest value between taken).tells problem after failed
      exact ⟨moved.trans stopped, there, moved.trans ahead, about⟩

theorem Points.after_get {next : Cursor → Scan β} (rest : Points (next cursor) cursor) : Points (get >>= next) cursor :=
  ⟨rest.moves, rest.tells⟩

theorem points_of_ok {step : Scan α} {value : α} {after : Cursor} (done : step cursor = .ok value after)
    (ahead : cursor.Ahead after) : Points step cursor := by
  constructor
  · intro _ _ same
    cases done.symm.trans same
    exact ahead
  · intro _ _ failed
    cases done.symm.trans failed

theorem points_of_error {step : Scan α} {problem : Diagnostic} {stopped there : Cursor}
    (failed : step cursor = .error problem stopped) (moved : cursor.Ahead stopped) (ahead : cursor.Ahead there)
    (about : problem.At there) : Points step cursor := by
  constructor
  · intro _ _ done
    cases failed.symm.trans done
  · intro _ _ same
    cases failed.symm.trans same
    exact ⟨moved, there, ahead, about⟩

theorem points_pure (value : α) (cursor : Cursor) : Points (pure value) cursor := points_of_ok rfl (.refl cursor)

theorem points_fail {cause : Cause} (shows : cause.Shows cursor.rest) : Points (fail cause : Scan α) cursor :=
  points_of_error rfl (.refl cursor) (.refl cursor) ⟨rfl, rfl, shows⟩

theorem points_unexpected (expected : String) (cursor : Cursor) : Points (unexpected expected : Scan α) cursor :=
  .after_get (points_fail String.toList_ofList)

theorem points_readWhile (keep : Char → Bool) (cursor : Cursor) : Points (readWhile keep) cursor :=
  points_of_ok rfl (cursor.ahead_pastWhile keep)

theorem points_skipBlanks (cursor : Cursor) : Points skipBlanks cursor := points_of_ok rfl (cursor.ahead_pastWhile isBlank)

theorem points_forward {c : Char} (ahead : cursor.next? = some c) : Points (modify Cursor.forward : Scan Unit) cursor := by
  obtain ⟨rest, here⟩ := List.head?_eq_some_iff.mp ahead
  exact points_of_ok rfl ⟨1, by simp [here], rfl⟩

theorem points_advance (cursor : Cursor) : Points advance cursor := by
  apply Points.after_get
  cases ahead : cursor.next? with
  | none => exact points_fail (List.head?_eq_none_iff.mp ahead)
  | some c => exact (points_forward ahead).bind fun _ _ _ => points_pure c _

theorem points_expectRest (literal chars : List Char) (cursor : Cursor) : Points (expectRest literal chars) cursor := by
  induction chars generalizing cursor with
  | nil => exact points_pure () cursor
  | cons c more ih =>
    apply Points.after_get
    cases ahead : cursor.next? with
    | none => exact points_fail (List.head?_eq_none_iff.mp ahead)
    | some found =>
      dsimp only
      split
      · exact (points_forward ahead).bind fun _ after _ => ih after
      · exact points_unexpected _ cursor

theorem points_expect (literal : List Char) (cursor : Cursor) : Points (expect literal) cursor :=
  points_expectRest literal literal cursor

end Scan

namespace Expression
open Scan
variable {cursor : Cursor}

private theorem points_readString (cursor : Cursor) : Points readString cursor :=
  (points_advance _).bind fun _ _ _ => (points_readWhile _ _).bind fun _ _ _ => (points_advance _).bind fun _ _ _ =>
    points_pure _ _

private theorem points_readNumber (cursor : Cursor) : Points readNumber cursor := by
  apply (points_readWhile _ _).bind
  intro whole after _
  apply Points.after_get
  split
  · exact (points_advance _).bind fun _ _ _ => (points_readWhile _ _).bind fun _ _ _ => points_pure _ _
  · exact points_pure _ _

/-- The operator is refused where it begins, after its first character has been read. -/
private theorem points_readOperator {first : Char} (ahead : cursor.next? = some first)
    (starts : isOperatorStart first = true) : Points readOperator cursor := by
  obtain ⟨rest, here⟩ := List.head?_eq_some_iff.mp ahead
  have taken : advance cursor = .ok first cursor.forward := advance_ok_iff.mpr ⟨ahead, rfl⟩
  by_cases doubled : rest.head? = some (partner first)
  · apply Points.after_get
    apply (points_advance cursor).bind
    intro c after done
    cases taken.symm.trans done
    apply Points.after_get
    have next : cursor.forward.next? = some (partner first) := by
      rw [Cursor.next?, Cursor.rest_forward, here]
      exact doubled
    simp only [next, if_true]
    exact (points_advance _).bind fun _ _ _ => points_pure _ _
  · have alone : ¬ cursor.forward.next? = some (partner first) := by
      rw [Cursor.next?, Cursor.rest_forward, here]
      exact doubled
    have refused : readOperator cursor = .error ⟨.unknownOperator (String.ofList [first] ++ cursor.forward.nextText)
        (String.ofList [first, partner first]), some cursor.position, some cursor.forward.source⟩ cursor.forward := by
      rw [readOperator, get_bind, bind_ok taken, get_bind]
      simp only [alone, if_false]
      rfl
    have source := Cursor.source_forwardBy 1 cursor
    exact points_of_error refused ⟨1, by simp [here], rfl⟩ (.refl cursor)
      ⟨rfl, congrArg some source, first, rest, here, starts, doubled⟩

private theorem points_readValue {c : Char} {kind : Kind} (ahead : cursor.next? = some c) (begins : kindOf? c = some kind) :
    Points (readValue kind) cursor := by
  cases kind with
  | identifier => exact points_readWhile _ _
  | string => exact points_readString _
  | number => exact points_readNumber _
  | operator =>
    refine points_readOperator ahead ?_
    unfold kindOf? at begins
    repeat' split at begins
    all_goals cases begins
    assumption

theorem points_readPiece (cursor : Cursor) : Points readPiece cursor := by
  apply Points.after_get
  cases found : cursor.next?.bind kindOf? with
  | none => exact points_unexpected _ _
  | some kind =>
    obtain ⟨c, ahead, begins⟩ := Option.bind_eq_some_iff.mp found
    exact (points_readValue ahead begins).bind fun _ _ _ => points_pure _ _

theorem points_readAll (cursor : Cursor) : Points readAll cursor := by
  have skipped (cursor : Cursor) : cursor.Ahead (cursor.pastWhile isBlank) := cursor.ahead_pastWhile isBlank
  constructor
  · intro pieces final done
    obtain ⟨count, _, inside, moved, _⟩ := local_readAll cursor pieces final done
    exact ⟨count, inside, moved⟩
  · intro problem final failed
    fun_induction readAll cursor generalizing problem final with
    | case1 cursor start ended =>
      cases failed
      exact ⟨skipped cursor, start, skipped cursor, rfl, rfl, List.isEmpty_iff.mp ended⟩
    | case2 => cases failed
    | case3 cursor start _ _ earlier after taken =>
      cases failed
      obtain ⟨stopped, there, ahead, about⟩ := (points_readPiece start).tells _ _ taken
      exact ⟨(skipped cursor).trans stopped, there, (skipped cursor).trans ahead, about⟩
    | case4 cursor start _ _ piece after taken earlier last more ih =>
      cases failed
      have moved := (skipped cursor).trans ((points_readPiece start).moves piece after taken)
      obtain ⟨stopped, there, ahead, about⟩ := ih _ _ more
      exact ⟨moved.trans stopped, there, moved.trans ahead, about⟩
    | case5 => cases failed

theorem place_of_readPiece {after : Cursor} {piece : Piece} (done : readPiece cursor = .ok piece after) :
    piece.position = some cursor.position := by
  obtain ⟨_, _, got, done⟩ := bind_eq_ok done
  cases got
  cases found : cursor.next?.bind kindOf? with
  | none =>
    simp only [found] at done
    cases done
  | some kind =>
    simp only [found] at done
    obtain ⟨_, _, _, done⟩ := bind_eq_ok done
    cases done
    rfl

/-- The pieces of a condition are read from places in it. -/
theorem pieces_of_readAll {final : Cursor} {pieces : List Piece} (done : readAll cursor = .ok pieces final) {piece : Piece}
    (member : piece ∈ pieces) : ∃ there after, cursor.Ahead there ∧ readPiece there = .ok piece after := by
  fun_induction readAll cursor generalizing pieces final with
  | case1 => cases done
  | case2 =>
    cases done
    cases member
  | case3 => cases done
  | case4 => cases done
  | case5 =>
    rename_i cursor start _ _ first after taken others last more ih
    cases done
    have skipped : cursor.Ahead start := cursor.ahead_pastWhile isBlank
    rcases List.mem_cons.mp member with rfl | later
    · exact ⟨start, after, skipped, taken⟩
    · obtain ⟨there, behind, ahead, read⟩ := ih more later
      have between := skipped.trans ((points_readPiece start).moves first after taken)
      exact ⟨there, behind, between.trans ahead, read⟩

end Expression

namespace Token
open Scan

private theorem points_readName (expected : String) (cursor : Cursor) : Points (readName expected) cursor := by
  apply (points_readWhile _ _).bind
  intro name after _
  split
  · exact points_unexpected _ _
  · exact points_pure _ _

private theorem points_closing (literal : List Char) (form : Form) (cursor : Cursor) :
    Points (do skipBlanks; expect literal; return form) cursor :=
  (points_skipBlanks _).bind fun _ _ _ => (points_expect _ _).bind fun _ _ _ => points_pure _ _

private theorem points_named (closing : List Char) (expected : String) (form : String → Form) (cursor : Cursor) :
    Points (do skipBlanks; let name ← readName expected; skipBlanks; expect closing; return form name) cursor :=
  (points_skipBlanks _).bind fun _ _ _ => (points_readName _ _).bind fun _ _ _ => points_closing _ _ _

private theorem points_readBinding (cursor : Cursor) : Points readBinding cursor := by
  apply (points_readWhile _ _).bind
  intro binding after _
  apply Points.after_get
  split
  · exact points_unexpected _ _
  · exact points_pure _ _

private theorem points_readLoop (cursor : Cursor) : Points readLoop cursor := by
  apply (points_skipBlanks _).bind
  intro _ _ _
  apply (points_readWhile _ _).bind
  intro iterable _ _
  split
  · exact points_unexpected _ _
  apply (points_skipBlanks _).bind
  intro _ _ _
  apply (points_expect _ _).bind
  intro _ _ _
  apply Points.after_get
  split
  · exact (points_skipBlanks _).bind fun _ _ _ => (points_readBinding _).bind fun _ _ _ => points_closing _ _ _
  · exact points_unexpected _ _

private theorem points_readKeyword (keyword : Keyword) (cursor : Cursor) : Points (readKeyword keyword) cursor := by
  cases keyword with
  | loop => exact points_readLoop _
  | choice => exact (Expression.points_readAll _).bind fun _ _ _ => points_pure _ _
  | otherwise => exact points_closing _ _ _
  | close => exact points_closing _ _ _

/-- A word that is no keyword is refused where it begins, after it has been read. -/
private theorem points_word (cursor : Cursor) : Points (do
    let word ← readWhile Expression.isIdentifierChar
    match Keyword.ofText? word with
    | some keyword => readKeyword keyword
    | none => failAt cursor.position (.unknownKeyword word (Keyword.all.map Keyword.text)) : Scan Form) cursor := by
  obtain ⟨word, read, ahead⟩ : ∃ word, readWhile Expression.isIdentifierChar cursor =
      .ok word (cursor.pastWhile Expression.isIdentifierChar) ∧ word.toList <+: cursor.rest :=
    ⟨_, rfl, by simpa using List.takeWhile_prefix Expression.isIdentifierChar⟩
  cases known : Keyword.ofText? word with
  | some keyword =>
    apply (points_readWhile _ cursor).bind
    intro _ after done
    cases read.symm.trans done
    simp only [known]
    exact points_readKeyword keyword _
  | none =>
    apply points_of_error
    · rw [bind_ok read]
      simp only [known]
      rfl
    · exact cursor.ahead_pastWhile _
    · exact .refl cursor
    · exact ⟨rfl, congrArg some (Cursor.source_forwardBy _ cursor), ahead⟩

private theorem points_keyword (cursor : Cursor) : Points (do
    skipBlanks
    let cursor ← get
    if cursor.atEnd then fail (.endOfInput .keyword)
    else
      let word ← readWhile Expression.isIdentifierChar
      match Keyword.ofText? word with
      | some keyword => readKeyword keyword
      | none => failAt cursor.position (.unknownKeyword word (Keyword.all.map Keyword.text)) : Scan Form) cursor := by
  apply (points_skipBlanks _).bind
  intro _ there _
  apply Points.after_get
  split
  next ended => exact points_fail (List.isEmpty_iff.mp ended)
  · exact points_word there

/-- Behind the two characters that open a tag, what reads the rest of it goes on. -/
private theorem readForm_opened {cursor : Cursor} (opens : opensTag cursor.rest = true) :
    2 ≤ cursor.rest.length ∧
      ∃ step : Scan Form, Points step (cursor.forwardBy 2) ∧ readForm cursor = step (cursor.forwardBy 2) := by
  rw [opensTag_eq, Bool.or_eq_true, Bool.or_eq_true] at opens
  have long : 2 ≤ cursor.rest.length := by
    rcases opens with (opens | opens) | opens <;> exact (List.isPrefixOf_iff_prefix.mp opens).length_le
  have opened {opener : List Char} (starts : cursor.startsWith opener = true) :
      expect opener cursor = .ok () (cursor.forwardBy opener.length) := by
    obtain ⟨rest, here⟩ := startsWith_iff.mp starts
    exact (exactly_expect opener cursor).reads here.symm rfl
  refine ⟨long, ?_⟩
  rw [readForm, get_bind]
  by_cases isVariable : cursor.startsWith variableOpen = true
  · simp only [isVariable, if_true]
    exact ⟨_, points_named _ _ _ _, bind_ok (opened isVariable)⟩
  by_cases isControl : cursor.startsWith controlOpen = true
  · simp only [isVariable, isControl, if_true]
    exact ⟨_, points_keyword _, bind_ok (opened isControl)⟩
  · have isInclusion : cursor.startsWith inclusionOpen = true :=
      opens.resolve_left fun other => other.elim isVariable isControl
    simp only [isVariable, isControl, isInclusion, if_true]
    exact ⟨_, points_named _ _ _ _, bind_ok (opened isInclusion)⟩

theorem points_readForm (cursor : Cursor) : Points readForm cursor := by
  cases opens : opensTag cursor.rest with
  | false => exact points_of_ok (readForm_text opens) ⟨_, (plainText_isPrefix cursor.rest).length_le, rfl⟩
  | true =>
    obtain ⟨long, step, points, same⟩ := readForm_opened opens
    have opened : cursor.Ahead (cursor.forwardBy 2) := ⟨2, long, rfl⟩
    constructor
    · intro form after done
      exact opened.trans (points.moves form after (same ▸ done))
    · intro problem after failed
      obtain ⟨stopped, there, ahead, about⟩ := points.tells problem after (same ▸ failed)
      exact ⟨opened.trans stopped, there, opened.trans ahead, about⟩

theorem points_read (cursor : Cursor) : Points read? cursor := by
  apply Points.after_get
  split
  · exact points_pure _ _
  · exact (points_readForm _).bind fun _ _ _ => points_pure _ _

/-- What cannot be read is a tag, and reading stops behind the characters that open it. -/
theorem opened_of_read {cursor after : Cursor} {problem : Diagnostic} (failed : read? cursor = .error problem after) :
    2 ≤ cursor.rest.length ∧ (cursor.forwardBy 2).Ahead after := by
  rw [read?, get_bind] at failed
  split at failed
  · cases failed
  cases opens : opensTag cursor.rest with
  | false =>
    rw [bind_ok (readForm_text opens)] at failed
    cases failed
  | true =>
    obtain ⟨long, step, points, same⟩ := readForm_opened opens
    refine ⟨long, ?_⟩
    cases taken : step (cursor.forwardBy 2) with
    | ok form there =>
      rw [bind_ok (same.trans taken)] at failed
      cases failed
    | error cause stopped =>
      rw [bind_error (same.trans taken)] at failed
      cases failed
      exact (points.tells _ _ taken).1

end Token

namespace Lexer
variable {lexer after : Lexer}

/-- What asking for a token can come to. Where none is held and the source goes on, something is read, and more than one
character if that fails. -/
inductive Upshot (lexer : Lexer) : Prop
  | held {token : Token} (kept : lexer.held = some token) (taken : next lexer = .ok (some token) ⟨lexer.cursor, none⟩)
  | done (free : lexer.held = none) (ended : lexer.cursor.rest = []) (taken : next lexer = .ok none lexer)
  | token {token : Token} {count : Nat} (free : lexer.held = none) (moves : 1 ≤ count)
      (inside : count ≤ lexer.cursor.rest.length)
      (taken : next lexer = .ok (some token) ⟨lexer.cursor.forwardBy count, none⟩)
  | fault {problem : Diagnostic} {count : Nat} (free : lexer.held = none) (moves : 2 ≤ count)
      (inside : count ≤ lexer.cursor.rest.length) (failed : next lexer = .error problem ⟨lexer.cursor.forwardBy count, none⟩)

theorem upshot (lexer : Lexer) : Upshot lexer := by
  obtain ⟨cursor, held⟩ := lexer
  cases held with
  | some token => exact .held rfl rfl
  | none =>
    have fresh := next_fresh cursor
    cases read : Token.read? cursor with
    | error problem there =>
      rw [read] at fresh
      obtain ⟨long, count, inside, rfl⟩ := Token.opened_of_read read
      rw [Cursor.rest_forwardBy, List.length_drop] at inside
      rw [← Cursor.forwardBy_add] at fresh
      exact .fault rfl (Nat.le_add_right 2 count) (show 2 + count ≤ cursor.rest.length by omega) fresh
    | ok found there =>
      rw [read] at fresh
      obtain ⟨count, inside, rfl⟩ := (Token.points_read cursor).moves _ _ read
      cases found with
      | none =>
        have ended := Token.read_none read
        rw [ended] at inside
        cases Nat.le_zero.mp inside
        exact .done rfl ended fresh
      | some token =>
        have shorter := Token.consumes_read read
        rw [Cursor.rest_forwardBy, List.length_drop] at shorter
        exact .token rfl (show 1 ≤ count by omega) inside fresh

/-- A lexer that has come to the end stays there. -/
theorem eq_of_ended (ended : next lexer = .ok none after) : after = lexer := by
  cases lexer.upshot with
  | done _ _ taken =>
    cases taken.symm.trans ended
    rfl
  | held _ taken => cases taken.symm.trans ended
  | token _ _ _ taken => cases taken.symm.trans ended
  | fault _ _ _ failed => cases failed.symm.trans ended

theorem next_of_ended (ended : next lexer = .ok none after) : next after = .ok none after := by
  cases eq_of_ended ended
  exact ended

end Lexer

section
variable {cursor : Cursor}

/-- The fault that ends the tokens is about a place in the source. -/
theorem fault_of_tokensFrom {problem : Diagnostic} (fault : (tokensFrom cursor).2.1 = some problem) :
    ∃ there, cursor.Ahead there ∧ problem.At there := by
  induction cursor using tokensFrom_induction with
  | fault cursor other after failed =>
    rw [tokensFrom_fault failed] at fault
    cases fault
    exact ((Token.points_read cursor).tells _ _ failed).2
  | done cursor after ended =>
    rw [tokensFrom_done ended] at fault
    cases fault
  | token cursor token after read ih =>
    rw [tokensFrom_token read] at fault
    obtain ⟨there, ahead, about⟩ := ih fault
    exact ⟨there, ((Token.points_read cursor).moves _ _ read).trans ahead, about⟩

/-- Every token is read at a place in the source. -/
theorem read_of_mem_tokensFrom {token : Token} (member : token ∈ (tokensFrom cursor).1) :
    ∃ there after, cursor.Ahead there ∧ Token.read? there = .ok (some token) after := by
  induction cursor using tokensFrom_induction with
  | fault cursor problem after failed => simp [tokensFrom_fault failed] at member
  | done cursor after ended => simp [tokensFrom_done ended] at member
  | token cursor first after read ih =>
    rw [tokensFrom_token read] at member
    rcases List.mem_cons.mp member with rfl | later
    · exact ⟨cursor, after, .refl cursor, read⟩
    · obtain ⟨there, behind, ahead, taken⟩ := ih later
      exact ⟨there, behind, ((Token.points_read cursor).moves _ _ read).trans ahead, taken⟩

end

end Stencil
