import Mathlib.Data.List.TakeWhile
import Stencil.Proofs.SourceExtent
import Stencil.Token.Lexer

/-! Reading keeps to its place. A step that succeeds takes a number of characters that depends on those characters and on
no more than a few behind them, so it takes them alike in any source where they stand. A tag needs nothing behind it. -/

namespace Stencil
open Text

namespace Scan
variable {α β : Type} {need uses : Nat}

/-- Where the step succeeds it takes so many characters at least, and it does the same at any cursor beyond if so many
characters are left behind those it takes, or if nothing else comes behind them there. -/
def Local (need uses : Nat) (image : Extent → α → α) (step : Scan α) : Prop :=
  ∀ cursor value after, step cursor = .ok value after →
    ∃ count, uses ≤ count ∧ count ≤ cursor.rest.length ∧ after = cursor.forwardBy count ∧
      ∀ extent tail there, Cursor.Beyond extent tail cursor there → tail = [] ∨ count + need ≤ cursor.rest.length →
        step there = .ok (image extent value) (there.forwardBy count)

/-- A local step whose value holds no places. -/
abbrev Steady (need uses : Nat) (step : Scan α) : Prop := Local need uses (fun _ value => value) step

theorem Local.bind {image : Extent → β → β} {step : Scan α} {next : α → Scan β} {need' uses' : Nat}
    (first : Steady need uses step) (rest : ∀ value, Local need' uses' image (next value)) (enough : need ≤ need' + uses') :
    Local need' (uses + uses') image (step >>= next) := by
  intro cursor value after done
  obtain ⟨middle, between, taken, done⟩ := bind_eq_ok done
  obtain ⟨count, long, inside, rfl, like⟩ := first cursor middle between taken
  obtain ⟨more, further, within, rfl, likewise⟩ := rest middle _ value after done
  rw [Cursor.rest_forwardBy, List.length_drop] at within likewise
  refine ⟨count + more, by omega, by omega, (Cursor.forwardBy_add ..).symm, ?_⟩
  intro extent tail there beyond room
  rw [bind_ok (like extent tail there beyond (room.imp_right fun _ => by omega)),
    likewise extent tail _ (beyond.forwardBy inside) (room.imp_right fun _ => by omega), Cursor.forwardBy_add]

theorem get_bind (next : Cursor → Scan α) (cursor : Cursor) : (get >>= next) cursor = next cursor cursor := rfl

/-- A step that looks no further than one character, before one that takes one. -/
theorem Local.before {image : Extent → β → β} {step : Scan α} {next : α → Scan β} (first : Steady 1 0 step)
    (rest : ∀ value, Local need 1 image (next value)) : Local need 1 image (step >>= next) :=
  first.bind rest (Nat.le_add_left ..)

/-- What is done after a look at the cursor is one local step, whatever else there is to see beyond. -/
theorem local_get {image : Extent → α → α} {next : Cursor → Scan α}
    (same : ∀ cursor value after, next cursor cursor = .ok value after → ∃ step, Local need uses image step ∧
      step cursor = .ok value after ∧ ∀ extent tail there, Cursor.Beyond extent tail cursor there →
        tail = [] ∨ need ≤ cursor.rest.length → ∀ value after, step there = .ok value after →
          next there there = .ok value after) :
    Local need uses image (get >>= next) := by
  intro cursor value after done
  obtain ⟨_, _, got, done⟩ := bind_eq_ok done
  cases got
  obtain ⟨step, keeps, taken, agrees⟩ := same cursor value after done
  obtain ⟨count, long, inside, rfl, like⟩ := keeps cursor value after taken
  refine ⟨count, long, inside, rfl, ?_⟩
  intro extent tail there beyond room
  apply agrees extent tail there beyond (room.imp_right fun _ => by omega)
  exact like extent tail there beyond room

theorem local_pure {image : Extent → α → α} {value : α} (fixed : ∀ extent, image extent value = value) :
    Local need 0 image (pure value) := by
  intro cursor _ _ done
  cases done
  refine ⟨0, Nat.le_refl _, Nat.zero_le _, rfl, ?_⟩
  intro extent _ _ _ _
  rw [fixed]
  rfl

theorem Local.mono {image : Extent → α → α} {step : Scan α} {need' : Nat} (keeps : Local need uses image step)
    (more : need ≤ need') : Local need' uses image step := by
  intro cursor value after done
  obtain ⟨count, long, inside, moved, like⟩ := keeps cursor value after done
  refine ⟨count, long, inside, moved, ?_⟩
  intro extent tail there beyond room
  exact like extent tail there beyond (room.imp_right fun _ => by omega)

theorem local_fail {image : Extent → α → α} {step : Scan α} (fails : ∀ cursor value after, step cursor ≠ .ok value after) :
    Local need uses image step := by
  intro cursor value after done
  exact absurd done (fails cursor value after)

theorem Local.weaken {image : Extent → α → α} {step : Scan α} {uses' : Nat} (keeps : Local need uses image step)
    (fewer : uses' ≤ uses) : Local need uses' image step := by
  intro cursor value after done
  obtain ⟨count, long, inside, moved, like⟩ := keeps cursor value after done
  exact ⟨count, Nat.le_trans fewer long, inside, moved, like⟩

private theorem takeWhile_append {keep : Char → Bool} {chars tail : List Char}
    (room : tail = [] ∨ (chars.takeWhile keep).length + 1 ≤ chars.length) :
    (chars ++ tail).takeWhile keep = chars.takeWhile keep := by
  rcases room with rfl | shorter
  · rw [List.append_nil]
  · rw [List.takeWhile_append, if_neg (by omega)]

theorem steady_readWhile (keep : Char → Bool) : Steady 1 0 (readWhile keep) := by
  intro cursor _ _ done
  cases done
  refine ⟨_, Nat.zero_le _, (List.takeWhile_sublist keep).length_le, rfl, ?_⟩
  intro extent tail there beyond room
  have kept := takeWhile_append room
  rw [← beyond.ahead] at kept
  change EStateM.Result.ok (String.ofList (there.rest.takeWhile keep))
    (there.forwardBy (there.rest.takeWhile keep).length) = _
  rw [kept]

theorem steady_skipBlanks : Steady 1 0 skipBlanks := by
  intro cursor _ _ done
  cases done
  refine ⟨_, Nat.zero_le _, (List.takeWhile_sublist isBlank).length_le, rfl, ?_⟩
  intro extent tail there beyond room
  have kept := takeWhile_append room
  rw [← beyond.ahead] at kept
  change EStateM.Result.ok () (there.forwardBy (there.rest.takeWhile isBlank).length) = _
  rw [kept]

theorem ahead_beyond {cursor there : Cursor} {extent : Extent} {tail : List Char} (index : Nat)
    (beyond : Cursor.Beyond extent tail cursor there) (room : tail = [] ∨ index < cursor.rest.length) :
    there.rest[index]? = cursor.rest[index]? := by
  rw [beyond.ahead]
  rcases room with rfl | inside
  · rw [List.append_nil]
  · exact List.getElem?_append_left inside

theorem next_beyond {cursor there : Cursor} {extent : Extent} {tail : List Char} {c : Char}
    (beyond : Cursor.Beyond extent tail cursor there) (ahead : cursor.next? = some c) : there.next? = some c := by
  obtain ⟨rest, here⟩ := List.head?_eq_some_iff.mp ahead
  rw [Cursor.next?, beyond.ahead, here]
  rfl

theorem pastWhile_beyond {cursor there : Cursor} {extent : Extent} {tail : List Char} (keep : Char → Bool)
    (beyond : Cursor.Beyond extent tail cursor there) (room : tail = [] ∨ 0 < (cursor.pastWhile keep).rest.length) :
    Cursor.Beyond extent tail (cursor.pastWhile keep) (there.pastWhile keep) ∧
      there.pastWhile keep = there.forwardBy (cursor.rest.takeWhile keep).length := by
  have inside := (List.takeWhile_sublist keep (l := cursor.rest)).length_le
  have same : there.pastWhile keep = there.forwardBy (cursor.rest.takeWhile keep).length := by
    rw [Cursor.pastWhile, beyond.ahead, takeWhile_append]
    apply room.imp_right
    intro _
    rw [Cursor.pastWhile, Cursor.rest_forwardBy, List.length_drop] at *
    omega
  exact ⟨same ▸ beyond.forwardBy inside, same⟩

theorem startsWith_iff {cursor : Cursor} {literal : List Char} :
    cursor.startsWith literal = true ↔ literal <+: cursor.rest := List.isPrefixOf_iff_prefix

theorem startsWith_beyond {cursor there : Cursor} {extent : Extent} {tail : List Char} (literal : List Char)
    (beyond : Cursor.Beyond extent tail cursor there) (room : tail = [] ∨ literal.length ≤ cursor.rest.length) :
    there.startsWith literal = cursor.startsWith literal := by
  rw [Bool.eq_iff_iff, startsWith_iff, startsWith_iff, beyond.ahead]
  rcases room with rfl | inside
  · rw [List.append_nil]
  · exact ⟨fun long => List.prefix_of_prefix_length_le long (List.prefix_append ..) inside,
      fun short => short.trans (List.prefix_append ..)⟩

theorem advance_ok_iff {cursor after : Cursor} {c : Char} :
    advance cursor = .ok c after ↔ cursor.next? = some c ∧ after = cursor.forward := by
  simp only [advance, get_bind]
  cases cursor.next? with
  | none => exact iff_of_false (fun done => by cases done) (by simp)
  | some found =>
    constructor
    · intro done
      cases done
      exact ⟨rfl, rfl⟩
    · intro ⟨same, moved⟩
      cases same
      rw [moved]
      rfl

theorem steady_advance : Steady need 1 advance := by
  intro cursor c after done
  obtain ⟨ahead, rfl⟩ := advance_ok_iff.mp done
  refine ⟨1, Nat.le_refl _, ?_, rfl, ?_⟩
  · obtain ⟨rest, here⟩ := List.head?_eq_some_iff.mp ahead
    simp [here]
  · intro extent tail there beyond _
    exact advance_ok_iff.mpr ⟨next_beyond beyond ahead, rfl⟩

theorem steady_expectRest (literal chars : List Char) : Steady need chars.length (expectRest literal chars) := by
  induction chars with
  | nil => exact local_pure fun _ => rfl
  | cons c more ih =>
    rw [expectRest]
    apply local_get
    intro cursor _ after done
    cases ahead : cursor.next? with
    | none =>
      simp only [ahead] at done
      cases done
    | some found =>
      simp only [ahead] at done
      by_cases same : found = c
      · subst same
        simp only [if_true] at done
        have taken : (advance >>= fun _ => expectRest literal more) cursor = .ok () after := by
          rw [bind_ok (advance_ok_iff.mpr ⟨ahead, rfl⟩)]
          exact done
        have keeps := steady_advance.bind (fun _ => ih) (Nat.zero_le _)
        rw [Nat.add_comm] at keeps
        refine ⟨_, keeps, taken, ?_⟩
        intro extent tail there beyond _ _ last other
        have here := next_beyond beyond ahead
        rw [bind_ok (advance_ok_iff.mpr ⟨here, rfl⟩)] at other
        simp only [here, if_true]
        exact other
      · simp only [same, if_false] at done
        cases done

theorem steady_expect (literal : List Char) : Steady need literal.length (expect literal) := steady_expectRest literal literal

theorem steady_opening (literal : List Char) : Steady need 0 (expect literal) :=
  Local.weaken (steady_expect literal) (Nat.zero_le _)

end Scan

namespace Expression
open Scan
variable {need : Nat}

def Piece.shift (extent : Extent) (piece : Piece) : Piece := { piece with position := piece.position.map extent.shift }

private theorem steady_readString : Steady need (1 + (0 + (1 + 0))) readString :=
  steady_advance.bind (fun _ => (steady_readWhile _).bind (fun _ => steady_advance.bind (fun _ => local_pure fun _ => rfl)
    (Nat.zero_le _)) (show 1 ≤ need + 1 by omega)) (Nat.zero_le _)

/-- Whether a number goes on behind a point shows in two characters. -/
private theorem steady_readNumber : Steady 2 0 readNumber := by
  refine (steady_readWhile isDigit).bind ?_ (show 1 ≤ 2 + 0 by omega)
  intro whole
  apply local_get
  intro cursor text after done
  have same {extent : Extent} {tail : List Char} {there : Cursor} (beyond : Cursor.Beyond extent tail cursor there)
      (room : tail = [] ∨ 2 ≤ cursor.rest.length) : there.next? = cursor.next? ∧ there.look 1 = cursor.look 1 := by
    have first := ahead_beyond 0 beyond (room.imp_right fun _ => by omega)
    exact ⟨by simpa [Cursor.next?, List.head?_eq_getElem?] using first, ahead_beyond 1 beyond room⟩
  by_cases point : (cursor.next? = some '.' && (cursor.look 1).any isDigit) = true
  · simp only [point, if_true] at done
    have keeps : Steady 2 (1 + (0 + 0))
        (do let point ← advance; let places ← readWhile isDigit; return whole.push point ++ places) :=
      steady_advance.bind (fun _ => (steady_readWhile _).bind (fun _ => local_pure fun _ => rfl) (show 1 ≤ 2 + 0 by omega))
        (Nat.zero_le _)
    refine ⟨_, Local.weaken keeps (Nat.zero_le _), done, ?_⟩
    intro extent tail there beyond room _ _ other
    obtain ⟨first, second⟩ := same beyond room
    simp only [first, second, point, if_true]
    exact other
  · simp only [point] at done
    refine ⟨_, local_pure fun _ => rfl, done, ?_⟩
    intro extent tail there beyond room _ _ other
    obtain ⟨first, second⟩ := same beyond room
    simp only [first, second, point]
    exact other

theorem readOperator_ok_iff {cursor after : Cursor} {text : String} : readOperator cursor = .ok text after ↔
    ∃ first rest, cursor.rest = first :: partner first :: rest ∧ text = String.ofList [first, partner first] ∧
      after = cursor.forwardBy 2 := by
  constructor
  · intro done
    obtain ⟨_, _, got, done⟩ := bind_eq_ok done
    cases got
    obtain ⟨first, middle, taken, done⟩ := bind_eq_ok done
    obtain ⟨ahead, rfl⟩ := advance_ok_iff.mp taken
    obtain ⟨rest, here⟩ := List.head?_eq_some_iff.mp ahead
    obtain ⟨_, _, got, done⟩ := bind_eq_ok done
    cases got
    by_cases doubled : cursor.forward.next? = some (partner first)
    · simp only [doubled, if_true] at done
      obtain ⟨second, last, taken, done⟩ := bind_eq_ok done
      obtain ⟨_, rfl⟩ := advance_ok_iff.mp taken
      cases done
      obtain ⟨more, behind⟩ := List.head?_eq_some_iff.mp doubled
      rw [Cursor.rest_forward, here, List.tail_cons] at behind
      exact ⟨first, more, by rw [here, behind], rfl, rfl⟩
    · simp only [doubled, if_false] at done
      cases done
  · intro ⟨first, rest, here, read, moved⟩
    subst read moved
    have ahead : cursor.next? = some first := by simp [Cursor.next?, here]
    have doubled : cursor.forward.next? = some (partner first) := by simp [Cursor.next?, here]
    rw [readOperator, get_bind, bind_ok (advance_ok_iff.mpr ⟨ahead, rfl⟩), get_bind]
    simp only [doubled, if_true]
    rw [bind_ok (advance_ok_iff.mpr ⟨doubled, rfl⟩)]
    rfl

private theorem steady_readOperator : Steady need 2 readOperator := by
  intro cursor text after done
  obtain ⟨first, rest, here, rfl, rfl⟩ := readOperator_ok_iff.mp done
  refine ⟨2, Nat.le_refl _, by simp [here], rfl, ?_⟩
  intro extent tail there beyond _
  exact readOperator_ok_iff.mpr ⟨first, rest ++ tail, by rw [beyond.ahead, here]; rfl, rfl, rfl⟩

private theorem steady_readValue (kind : Kind) : Steady 2 0 (readValue kind) := by
  cases kind with
  | identifier => exact (steady_readWhile _).mono (by omega)
  | string => exact Local.weaken steady_readString (Nat.zero_le _)
  | number => exact steady_readNumber
  | operator => exact Local.weaken steady_readOperator (Nat.zero_le _)

theorem local_readPiece : Local 2 0 Piece.shift readPiece := by
  intro cursor piece after done
  obtain ⟨_, _, got, done⟩ := bind_eq_ok done
  cases got
  cases found : cursor.next?.bind kindOf? with
  | none =>
    simp only [found] at done
    cases done
  | some kind =>
    simp only [found] at done
    obtain ⟨value, last, read, done⟩ := bind_eq_ok done
    cases done
    obtain ⟨count, long, inside, rfl, like⟩ := steady_readValue kind cursor value _ read
    refine ⟨count, long, inside, rfl, ?_⟩
    intro extent tail there beyond room
    obtain ⟨c, ahead, begins⟩ := Option.bind_eq_some_iff.mp found
    have other : there.next?.bind kindOf? = some kind := by simp [next_beyond beyond ahead, begins]
    rw [readPiece, get_bind]
    simp only [other]
    rw [bind_ok (like extent tail there beyond room), beyond.place]
    rfl

theorem readAll_done {cursor : Cursor} (closes : (cursor.pastWhile isBlank).startsWith controlClose = true) :
    readAll cursor = .ok [] ((cursor.pastWhile isBlank).forwardBy 2) := by
  have more : (cursor.pastWhile isBlank).atEnd = false := by
    obtain ⟨rest, here⟩ := startsWith_iff.mp closes
    rw [Cursor.atEnd, ← here]
    rfl
  rw [readAll]
  simp only [more, closes, Bool.false_eq_true, if_false, if_true]

theorem readAll_piece {cursor after final : Cursor} {piece : Piece} {pieces : List Piece}
    (goes : (cursor.pastWhile isBlank).startsWith controlClose = false)
    (read : readPiece (cursor.pastWhile isBlank) = .ok piece after) (others : readAll after = .ok pieces final) :
    readAll cursor = .ok (piece :: pieces) final := by
  have more : (cursor.pastWhile isBlank).atEnd = false := by
    have shorter := consumes_readPiece _ _ _ read
    rw [Cursor.atEnd, List.isEmpty_eq_false_iff]
    exact List.ne_nil_of_length_pos (by omega)
  rw [readAll]
  simp only [more, goes, Bool.false_eq_true, if_false]
  split
  next failed => simp [read] at failed
  next same =>
    simp only [read] at same
    cases same
    simp only [others]

/-- The pieces of a condition end with the mark that closes the tag, so nothing behind it matters. -/
theorem local_readAll : Local 0 2 (fun extent pieces => pieces.map (Piece.shift extent)) readAll := by
  intro cursor pieces final done
  fun_induction readAll cursor generalizing pieces final with
  | case1 => cases done
  | case2 cursor start _ closes =>
    cases done
    have long := (startsWith_iff.mp closes).length_le
    have length : start.rest.length = cursor.rest.length - (cursor.rest.takeWhile isBlank).length := by
      simp [start, Cursor.pastWhile]
    have short : controlClose.length = 2 := rfl
    refine ⟨(cursor.rest.takeWhile isBlank).length + 2, by omega, by omega, (Cursor.forwardBy_add ..).symm, ?_⟩
    intro extent tail there beyond _
    obtain ⟨further, same⟩ := pastWhile_beyond isBlank beyond (.inr (by change 0 < start.rest.length; omega))
    rw [readAll_done ((startsWith_beyond controlClose further (.inr long)).trans closes), same, Cursor.forwardBy_add]
    rfl
  | case3 => cases done
  | case4 => cases done
  | case5 cursor start ended goes piece after taken pieces final more ih =>
    cases done
    obtain ⟨count, _, inside, rfl, like⟩ := local_readPiece start piece after taken
    obtain ⟨others, long, within, rfl, likewise⟩ := ih pieces final more
    rw [Cursor.rest_forwardBy, List.length_drop] at within likewise
    have length : start.rest.length = cursor.rest.length - (cursor.rest.takeWhile isBlank).length := by
      simp [start, Cursor.pastWhile]
    refine ⟨(cursor.rest.takeWhile isBlank).length + (count + others), by omega, by omega, ?_, ?_⟩
    · simp only [Cursor.forwardBy_add, start, Cursor.pastWhile]
    intro extent tail there beyond _
    obtain ⟨further, same⟩ := pastWhile_beyond isBlank beyond (.inr (by change 0 < start.rest.length; omega))
    have apart := (startsWith_beyond controlClose further (.inr (by change 2 ≤ start.rest.length; omega))).trans
      (Bool.eq_false_iff.mpr goes)
    have read := like extent tail _ further (.inr (by omega))
    have rest := likewise extent tail _ (further.forwardBy inside) (.inr (by omega))
    rw [readAll_piece apart read rest, same, Cursor.forwardBy_add, Cursor.forwardBy_add]
    rfl

end Expression

namespace Token
open Scan
open Expression (controlClose)
variable {need : Nat}

def Form.shift (extent : Extent) : Form → Form
  | .choice pieces => .choice (pieces.map (Expression.Piece.shift extent))
  | form => form

/-- The token as it is read when a text of this extent is put before its source. -/
def shift (extent : Extent) (token : Token) : Token := ⟨token.position.map extent.shift, token.form.shift extent⟩

private theorem steady_readName (expected : String) : Steady 1 0 (readName expected) := by
  refine (steady_readWhile _).bind ?_ (show 1 ≤ 1 + 0 by omega)
  intro name
  split
  · exact local_fail fun _ _ _ done => by cases done
  · exact local_pure fun _ => rfl

private theorem local_closing {literal : List Char} {form : Form} (some : 0 < literal.length)
    (fixed : ∀ extent, form.shift extent = form) :
    Local 0 1 Form.shift (do skipBlanks; expect literal; return form) :=
  steady_skipBlanks.before fun _ =>
    Local.weaken ((steady_expect literal).bind (fun _ => local_pure fixed) (Nat.zero_le _)) some

private theorem local_readVariable : Local 0 1 Form.shift readVariable :=
  (steady_opening variableOpen).before fun _ => steady_skipBlanks.before fun _ => (steady_readName _).before fun _ =>
    local_closing (by decide) fun _ => rfl

private theorem local_readInclusion : Local 0 1 Form.shift readInclusion :=
  (steady_opening inclusionOpen).before fun _ => steady_skipBlanks.before fun _ => (steady_readName _).before fun _ =>
    local_closing (by decide) fun _ => rfl

private theorem local_closeControl {form : Form} (fixed : ∀ extent, form.shift extent = form) :
    Local 0 1 Form.shift (closeControl form) := local_closing (by decide) fixed

private theorem steady_readBinding : Steady 1 0 readBinding := by
  refine (steady_readWhile _).bind ?_ (show 1 ≤ 1 + 0 by omega)
  intro binding
  apply local_get
  intro cursor _ after done
  by_cases wrong : (binding = "" || cursor.next?.any fun c => !isBlank c && c ≠ '%') = true
  · simp only [wrong, if_true] at done
    cases done
  · simp only [wrong] at done
    refine ⟨_, local_pure fun _ => rfl, done, ?_⟩
    intro extent tail there beyond room _ _ other
    have same := ahead_beyond 0 beyond room
    simp only [← List.head?_eq_getElem?] at same
    simp only [Cursor.next?, same] at wrong ⊢
    simp only [wrong]
    exact other

private theorem local_readLoop : Local 0 1 Form.shift readLoop := by
  apply steady_skipBlanks.before
  intro _
  apply (steady_readWhile _).before
  intro iterable
  split
  · exact local_fail fun _ _ _ done => by cases done
  apply steady_skipBlanks.before
  intro _
  apply (steady_opening ['a', 's']).before
  intro _
  apply local_get
  intro cursor _ after done
  by_cases apart : cursor.next?.any isBlank = true
  · simp only [apart, if_true] at done
    have keeps : Local 0 1 Form.shift (do skipBlanks; let binding ← readBinding; closeControl (.loop iterable binding)) := by
      apply steady_skipBlanks.before
      intro _
      apply steady_readBinding.before
      intro binding
      exact local_closeControl fun _ => rfl
    refine ⟨_, keeps, done, ?_⟩
    intro extent tail there beyond _ _ _ other
    obtain ⟨c, ahead, blank⟩ := (Option.any_eq_true ..).mp apart
    simp only [next_beyond beyond ahead, Option.any_some, blank, if_true]
    exact other
  · simp only [apart] at done
    cases done

private theorem local_readKeyword (keyword : Keyword) : Local 0 1 Form.shift (readKeyword keyword) := by
  cases keyword with
  | loop => exact local_readLoop
  | otherwise => exact local_closeControl fun _ => rfl
  | close => exact local_closeControl fun _ => rfl
  | choice =>
    intro cursor form after done
    obtain ⟨pieces, _, read, done⟩ := bind_eq_ok done
    cases done
    obtain ⟨count, long, inside, moved, like⟩ := Expression.local_readAll cursor pieces after read
    refine ⟨count, by omega, inside, moved, ?_⟩
    intro extent tail there beyond room
    exact bind_ok (like extent tail there beyond room)

private theorem local_readControl : Local 0 1 Form.shift readControl := by
  apply (steady_opening controlOpen).before
  intro _
  apply steady_skipBlanks.before
  intro _
  apply local_get
  intro cursor form after done
  cases here : cursor.rest with
  | nil =>
    simp only [Cursor.atEnd, here, List.isEmpty_nil, if_true] at done
    cases done
  | cons c rest =>
    simp only [Cursor.atEnd, here, List.isEmpty_cons, Bool.false_eq_true, if_false] at done
    refine ⟨_, (steady_readWhile _).before ?_, done, ?_⟩
    · intro word
      split
      · exact local_readKeyword _
      · exact local_fail fun _ _ _ done => by cases done
    · intro extent tail there beyond _ value last other
      simp only [Cursor.atEnd, beyond.ahead, here, List.cons_append, List.isEmpty_cons, Bool.false_eq_true, if_false]
      obtain ⟨word, middle, read, other⟩ := bind_eq_ok other
      rw [bind_ok read]
      cases known : Keyword.ofText? word with
      | none =>
        simp only [known] at other
        cases other
      | some keyword =>
        simp only [known] at other
        exact other

/-- Which of the three readers takes a tag shows in its first two characters. -/
private theorem readForm_step {cursor after : Cursor} {form : Form} (opens : opensTag cursor.rest = true)
    (done : readForm cursor = .ok form after) :
    ∃ step, Local 0 1 Form.shift step ∧ step cursor = .ok form after ∧
      ∀ extent tail there, Cursor.Beyond extent tail cursor there → readForm there = step there := by
  rw [opensTag_eq, Bool.or_eq_true, Bool.or_eq_true] at opens
  have long : 2 ≤ cursor.rest.length := by
    rcases opens with (opens | opens) | opens <;> exact (List.isPrefixOf_iff_prefix.mp opens).length_le
  have same {extent : Extent} {tail : List Char} {there : Cursor} (beyond : Cursor.Beyond extent tail cursor there) :
      there.startsWith variableOpen = cursor.startsWith variableOpen ∧
        there.startsWith controlOpen = cursor.startsWith controlOpen ∧
        there.startsWith inclusionOpen = cursor.startsWith inclusionOpen :=
    ⟨startsWith_beyond _ beyond (.inr long), startsWith_beyond _ beyond (.inr long),
      startsWith_beyond _ beyond (.inr long)⟩
  rw [readForm, get_bind] at done
  by_cases isVariable : cursor.startsWith variableOpen = true
  · simp only [isVariable, if_true] at done
    refine ⟨_, local_readVariable, done, ?_⟩
    intro extent tail there beyond
    simp only [readForm, get_bind, same beyond, isVariable, if_true]
  by_cases isControl : cursor.startsWith controlOpen = true
  · simp only [isVariable, isControl, if_true] at done
    refine ⟨_, local_readControl, done, ?_⟩
    intro extent tail there beyond
    simp only [readForm, get_bind, same beyond, isVariable, isControl, if_true]
    rfl
  · have isInclusion : cursor.startsWith inclusionOpen = true :=
      opens.resolve_left fun other => other.elim isVariable isControl
    simp only [isVariable, isControl, isInclusion, if_true] at done
    refine ⟨_, local_readInclusion, done, ?_⟩
    intro extent tail there beyond
    simp only [readForm, get_bind, same beyond, isVariable, isControl, isInclusion, if_true]
    rfl

/-- A tag is read the same way wherever it stands. -/
theorem readForm_tag {cursor after : Cursor} {form : Form} (opens : opensTag cursor.rest = true)
    (done : readForm cursor = .ok form after) :
    ∃ count, count ≤ cursor.rest.length ∧ after = cursor.forwardBy count ∧
      ∀ extent tail there, Cursor.Beyond extent tail cursor there →
        readForm there = .ok (form.shift extent) (there.forwardBy count) := by
  obtain ⟨step, keeps, taken, agrees⟩ := readForm_step opens done
  obtain ⟨count, _, inside, moved, like⟩ := keeps cursor form after taken
  refine ⟨count, inside, moved, ?_⟩
  intro extent tail there beyond
  rw [agrees extent tail there beyond]
  exact like extent tail there beyond (.inr inside)

end Token
end Stencil
