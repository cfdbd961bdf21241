import Stencil.Proofs.SourceTokens
import Stencil.Proofs.SourceExtent
import Stencil.Proofs.ReadingLocality

/-! What readers take, exactly. The shape of a reader tells which text it takes at a place, before which other characters,
and what it makes of that text; where the shape tells nothing, the reader fails. Shapes are put together as readers are. -/

namespace Stencil
open Text

namespace Position

/-- The place behind a text that begins here. -/
def past (position : Position) (text : List Char) : Position :=
  text.foldl (fun place c => if c = '\n' then ⟨place.line + 1, 0⟩ else ⟨place.line, place.column + 1⟩) position

@[simp] theorem past_nil (position : Position) : position.past [] = position := rfl

theorem past_append (position : Position) (first rest : List Char) :
    position.past (first ++ rest) = (position.past first).past rest := List.foldl_append

end Position

theorem Cursor.position_forwardBy {cursor : Cursor} {text rest : List Char} (ahead : cursor.rest = text ++ rest) :
    (cursor.forwardBy text.length).position = cursor.position.past text := by
  induction text generalizing cursor with
  | nil => rfl
  | cons c text ih =>
    have next : cursor.forward.position = cursor.position.past [c] := by
      simp only [forward, ahead, List.cons_append, position, Position.past, List.foldl_cons, List.foldl_nil]
      split <;> simp
    rw [List.length_cons, forwardBy, ih (by simp [ahead]), next]
    rfl

namespace Scan
variable {α β : Type}

/-- What a reader makes of a text that stands at a place before other characters, if it takes it. -/
abbrev Shape (α : Type) := Position → List Char → List Char → α → Prop

def ExactlyAt (step : Scan α) (shape : Shape α) (cursor : Cursor) : Prop :=
  ∀ value after, step cursor = .ok value after ↔
    ∃ text, cursor.rest = text ++ after.rest ∧ after = cursor.forwardBy text.length ∧
      shape cursor.position text after.rest value

/-- The reader takes the texts of the shape and no others. -/
def Exactly (step : Scan α) (shape : Shape α) : Prop := ∀ cursor, ExactlyAt step shape cursor

variable {step : Scan α} {shape : Shape α} {cursor : Cursor}

theorem ExactlyAt.reads (takes : ExactlyAt step shape cursor) {text rest : List Char} {value : α}
    (ahead : cursor.rest = text ++ rest) (fits : shape cursor.position text rest value) :
    step cursor = .ok value (cursor.forwardBy text.length) := by
  have behind : (cursor.forwardBy text.length).rest = rest := by
    rw [Cursor.rest_forwardBy, ahead, List.drop_left]
  exact (takes value _).mpr ⟨text, by rw [behind, ahead], rfl, by rwa [behind]⟩

/-- A reader that stops behind a text has taken this text. -/
theorem ExactlyAt.reads_iff (takes : ExactlyAt step shape cursor) {text rest : List Char} {value : α}
    (ahead : cursor.rest = text ++ rest) :
    step cursor = .ok value (cursor.forwardBy text.length) ↔ shape cursor.position text rest value := by
  refine ⟨?_, takes.reads ahead⟩
  intro done
  obtain ⟨taken, split, moved, fits⟩ := (takes value _).mp done
  have behind : (cursor.forwardBy text.length).rest = rest := by
    rw [Cursor.rest_forwardBy, ahead, List.drop_left]
  rw [behind] at split fits
  rwa [List.append_cancel_right (split.symm.trans ahead)] at fits

theorem ExactlyAt.congr {other : Shape α} (takes : ExactlyAt step shape cursor)
    (same : ∀ text rest value, cursor.rest = text ++ rest →
      (shape cursor.position text rest value ↔ other cursor.position text rest value)) :
    ExactlyAt step other cursor := by
  intro value after
  rw [takes value after]
  constructor
  · intro ⟨text, ahead, moved, fits⟩
    exact ⟨text, ahead, moved, (same text after.rest value ahead).mp fits⟩
  · intro ⟨text, ahead, moved, fits⟩
    exact ⟨text, ahead, moved, (same text after.rest value ahead).mpr fits⟩

theorem Exactly.congr {other : Shape α} (takes : Exactly step shape)
    (same : ∀ place text rest value, shape place text rest value ↔ other place text rest value) : Exactly step other :=
  fun cursor => (takes cursor).congr fun text rest value _ => same cursor.position text rest value

/-- Two readers one after the other share a text out between them. -/
theorem ExactlyAt.bind {next : α → Scan β} {shape' : α → Shape β} (first : ExactlyAt step shape cursor)
    (rest : ∀ value, Exactly (next value) (shape' value)) :
    ExactlyAt (step >>= next) (fun place text behind value => ∃ middle front back, text = front ++ back ∧
      shape place front (back ++ behind) middle ∧ shape' middle (place.past front) back behind value) cursor := by
  intro value after
  constructor
  · intro done
    obtain ⟨middle, between, taken, done⟩ := bind_eq_ok done
    obtain ⟨front, ahead, rfl, fits⟩ := (first middle between).mp taken
    obtain ⟨back, ahead', rfl, fits'⟩ := (rest middle _ value after).mp done
    have place := Cursor.position_forwardBy ahead
    rw [ahead'] at ahead fits
    refine ⟨front ++ back, by rw [ahead, List.append_assoc], ?_, middle, front, back, rfl, fits, place ▸ fits'⟩
    rw [List.length_append, Cursor.forwardBy_add]
  · intro ⟨text, ahead, moved, middle, front, back, split, fits, fits'⟩
    rw [split, List.append_assoc] at ahead
    rw [bind_ok (first.reads ahead fits)]
    have behind : (cursor.forwardBy front.length).rest = back ++ after.rest := by
      rw [Cursor.rest_forwardBy, ahead, List.drop_left]
    rw [(rest middle (cursor.forwardBy front.length)).reads behind (Cursor.position_forwardBy ahead ▸ fits'), moved, split,
      List.length_append, Cursor.forwardBy_add]

theorem Exactly.bind {next : α → Scan β} {shape' : α → Shape β} (first : Exactly step shape)
    (rest : ∀ value, Exactly (next value) (shape' value)) :
    Exactly (step >>= next) fun place text behind value => ∃ middle front back, text = front ++ back ∧
      shape place front (back ++ behind) middle ∧ shape' middle (place.past front) back behind value :=
  fun cursor => (first cursor).bind rest

theorem ExactlyAt.after_get {next : Cursor → Scan α} (takes : ExactlyAt (next cursor) shape cursor) :
    ExactlyAt (get >>= next) shape cursor := takes

theorem exactly_pure (value : α) : Exactly (pure value) fun _ text _ made => text = [] ∧ made = value := by
  intro cursor made after
  constructor
  · intro done
    cases done
    exact ⟨[], rfl, rfl, rfl, rfl⟩
  · intro ⟨text, _, moved, empty, same⟩
    rw [moved, empty, same]
    rfl

theorem exactlyAt_never (fails : ∀ value after, step cursor ≠ .ok value after) (never : ∀ text rest value,
    cursor.rest = text ++ rest → ¬ shape cursor.position text rest value) : ExactlyAt step shape cursor := by
  intro value after
  refine iff_of_false (fails value after) ?_
  intro ⟨text, ahead, _, fits⟩
  exact never text after.rest value ahead fits

theorem fail_ne_ok (cause : Diagnostic.Cause) (cursor after : Cursor) (value : α) :
    (fail cause : Scan α) cursor ≠ .ok value after := by
  intro done
  cases done

theorem unexpected_ne_ok (expected : String) (cursor after : Cursor) (value : α) :
    (unexpected expected : Scan α) cursor ≠ .ok value after := by
  intro done
  cases done

/-- No character of the class comes first. -/
def Stops (keep : Char → Bool) (rest : List Char) : Prop := ∀ c ∈ rest.head?, keep c = false

theorem stops_cons {keep : Char → Bool} {c : Char} {rest : List Char} : Stops keep (c :: rest) ↔ keep c = false := by
  simp [Stops]

theorem Stops.append {keep : Char → Bool} {text rest : List Char} (each : ∀ c ∈ text, keep c = false)
    (stops : text = [] → Stops keep rest) : Stops keep (text ++ rest) := by
  cases text with
  | nil => exact stops rfl
  | cons c text => exact stops_cons.mpr (each c List.mem_cons_self)

private theorem takeWhile_eq_iff {keep : Char → Bool} {text rest : List Char} :
    (text ++ rest).takeWhile keep = text ↔ (∀ c ∈ text, keep c = true) ∧ Stops keep rest := by
  constructor
  · intro taken
    refine ⟨?_, ?_⟩
    · intro c member
      rw [← taken] at member
      exact List.mem_takeWhile_imp member
    · intro c ahead
      have dropped := List.takeWhile_append_dropWhile (p := keep) (l := text ++ rest)
      rw [taken, List.append_right_inj] at dropped
      have stops := List.head?_dropWhile_not keep (text ++ rest)
      rw [dropped, Option.mem_def.mp ahead] at stops
      simpa using stops
  · intro ⟨each, stops⟩
    rw [List.takeWhile_append_of_pos each]
    cases rest with
    | nil => simp
    | cons c rest => simp [stops_cons.mp stops]

theorem pastWhile_eq {keep : Char → Bool} {text rest : List Char} (ahead : cursor.rest = text ++ rest)
    (each : ∀ c ∈ text, keep c = true) (stops : Stops keep rest) : cursor.pastWhile keep = cursor.forwardBy text.length := by
  rw [Cursor.pastWhile, ahead, takeWhile_eq_iff.mpr ⟨each, stops⟩]

theorem exactly_readWhile (keep : Char → Bool) : Exactly (readWhile keep) fun _ text rest value =>
    value = String.ofList text ∧ (∀ c ∈ text, keep c = true) ∧ Stops keep rest := by
  intro cursor value after
  constructor
  · intro done
    cases done
    have whole := List.takeWhile_append_dropWhile (p := keep) (l := cursor.rest)
    refine ⟨cursor.rest.takeWhile keep, by rw [Cursor.rest_pastWhile, whole], rfl, rfl, ?_⟩
    rw [Cursor.rest_pastWhile, ← takeWhile_eq_iff, whole]
  · intro ⟨text, ahead, moved, same, kept⟩
    rw [← takeWhile_eq_iff, ← ahead] at kept
    rw [same, moved, ← kept]
    rfl

theorem exactly_skipBlanks : Exactly skipBlanks fun _ text rest _ =>
    (∀ c ∈ text, isBlank c = true) ∧ Stops isBlank rest := by
  have read : Exactly (do let _ ← readWhile isBlank; return ()) _ :=
    (exactly_readWhile isBlank).bind fun _ => exactly_pure ()
  refine Exactly.congr (show Exactly skipBlanks _ from read) ?_
  intro place text rest value
  constructor
  · rintro ⟨_, _, _, rfl, ⟨_, kept⟩, rfl, _⟩
    simpa using kept
  · intro kept
    exact ⟨_, text, [], by simp, ⟨rfl, by simpa using kept⟩, rfl, rfl⟩

theorem exactly_advance : Exactly advance fun _ text _ value => text = [value] := by
  intro cursor value after
  rw [advance_ok_iff, Cursor.next?, List.head?_eq_some_iff]
  constructor
  · rintro ⟨⟨rest, ahead⟩, moved⟩
    refine ⟨[value], ?_, moved, rfl⟩
    rw [moved, Cursor.rest_forward, ahead]
    rfl
  · rintro ⟨_, ahead, moved, rfl⟩
    exact ⟨⟨after.rest, ahead⟩, moved⟩

private theorem exactlyAt_forward {c : Char} (ahead : cursor.next? = some c) :
    ExactlyAt (modify Cursor.forward : Scan Unit) (fun _ text _ _ => text = [c]) cursor := by
  obtain ⟨rest, here⟩ := List.head?_eq_some_iff.mp ahead
  intro value after
  constructor
  · intro done
    cases done
    exact ⟨[c], by rw [Cursor.rest_forward, here]; rfl, rfl, rfl⟩
  · rintro ⟨_, _, moved, rfl⟩
    rw [moved]
    rfl

theorem exactly_expect (literal : List Char) : Exactly (expect literal) fun _ text _ _ => text = literal := by
  suffices each : ∀ chars, Exactly (expectRest literal chars) fun _ text _ _ => text = chars from each literal
  intro chars
  induction chars with
  | nil => exact (exactly_pure ()).congr fun _ text _ _ => by simp
  | cons c more ih =>
    intro cursor
    apply ExactlyAt.after_get
    cases ahead : cursor.next? with
    | none =>
      apply exactlyAt_never (fun value after => fail_ne_ok _ cursor after value)
      rintro _ rest _ here rfl
      simp [Cursor.next?, here] at ahead
    | some found =>
      by_cases same : found = c
      · subst same
        simp only [if_true]
        refine ((exactlyAt_forward ahead).bind fun _ => ih).congr ?_
        intro text rest _ _
        constructor
        · rintro ⟨_, _, _, rfl, rfl, rfl⟩
          rfl
        · rintro rfl
          exact ⟨(), [found], more, rfl, rfl, rfl⟩
      · simp only [same, if_false]
        apply exactlyAt_never (fun value after => unexpected_ne_ok _ cursor after value)
        rintro _ rest _ here rfl
        simp [Cursor.next?, here] at ahead
        exact same ahead.symm

end Scan
end Stencil
