import Stencil.Cursor
import Stencil.Diagnostic
import Stencil.Text.Blank

/-! Reading steps. A step leaves the cursor where it stopped, also where it fails, and never moves it back. -/

namespace Stencil
open Diagnostic Text

abbrev Scan := EStateM Diagnostic Cursor

namespace Scan

def failAt {α : Type} (position : Position) (cause : Cause) : Scan α := do
  throw ⟨cause, some position, some (← get).source⟩

def fail {α : Type} (cause : Cause) : Scan α := do
  failAt (← get).position cause

def unexpected {α : Type} (expected : String) : Scan α := do
  fail (.unexpectedCharacter expected (← get).nextText)

def advance : Scan Char := do
  match (← get).next? with
  | none => fail (.endOfInput .character)
  | some c =>
    modify Cursor.forward
    return c

def readWhile (keep : Char → Bool) : Scan String := do
  let cursor ← get
  set (cursor.pastWhile keep)
  return String.ofList (cursor.rest.takeWhile keep)

def skipBlanks : Scan Unit := modify (Cursor.pastWhile isBlank)

/-- Reads what is left of a literal, and stops at the first character that differs. -/
def expectRest (literal : List Char) : List Char → Scan Unit
  | [] => return ()
  | c :: more => do
    match (← get).next? with
    | none => fail (.endOfInput (.literal (String.ofList literal)))
    | some found =>
      if found = c then
        modify Cursor.forward
        expectRest literal more
      else unexpected (quoted (String.ofList literal))

def expect (literal : List Char) : Scan Unit := expectRest literal literal

def stop {α : Type} (step : Scan α) (cursor : Cursor) : Cursor :=
  match step cursor with
  | .ok _ after | .error _ after => after

/-- The step leaves no more to read than it found. -/
def Onward {α : Type} (step : Scan α) : Prop :=
  ∀ cursor, (stop step cursor).rest.length ≤ cursor.rest.length

/-- The step reads something at this cursor, if it succeeds. -/
def Consumes {α : Type} (step : Scan α) (cursor : Cursor) : Prop :=
  ∀ value after, step cursor = .ok value after → after.rest.length < cursor.rest.length

section
variable {α β : Type}

theorem onward_pure (value : α) : Onward (pure value) := fun _ => Nat.le_refl _

theorem onward_get : Onward get := fun _ => Nat.le_refl _

theorem onward_failAt (position : Position) (cause : Cause) : Onward (failAt position cause : Scan α) :=
  fun _ => Nat.le_refl _

theorem onward_fail (cause : Cause) : Onward (fail cause : Scan α) := fun _ => Nat.le_refl _

theorem onward_unexpected (expected : String) : Onward (unexpected expected : Scan α) := fun _ => Nat.le_refl _

theorem bind_ok {step : Scan α} {next : α → Scan β} {cursor after : Cursor} {value : α}
    (taken : step cursor = .ok value after) : (step >>= next) cursor = next value after := by
  change EStateM.bind step next cursor = _
  simp [EStateM.bind, taken]

theorem bind_error {step : Scan α} {next : α → Scan β} {cursor after : Cursor} {problem : Diagnostic}
    (taken : step cursor = .error problem after) : (step >>= next) cursor = .error problem after := by
  change EStateM.bind step next cursor = _
  simp [EStateM.bind, taken]

theorem Onward.bind {step : Scan α} {next : α → Scan β} (first : Onward step) (rest : ∀ value, Onward (next value)) :
    Onward (step >>= next) := by
  intro cursor
  have moved := first cursor
  cases taken : step cursor with
  | ok value after =>
    simp only [stop, taken] at moved
    simp only [stop, bind_ok taken]
    exact Nat.le_trans (rest value after) moved
  | error problem after =>
    simp only [stop, taken] at moved
    simpa only [stop, bind_error taken] using moved

theorem onward_readWhile (keep : Char → Bool) : Onward (readWhile keep) := by
  intro cursor
  exact (cursor.rest_pastWhile keep ▸ (List.dropWhile_sublist keep).length_le :)

theorem onward_skipBlanks : Onward skipBlanks := by
  intro cursor
  exact (cursor.rest_pastWhile isBlank ▸ (List.dropWhile_sublist isBlank).length_le :)

theorem onward_forward : Onward (modify Cursor.forward : Scan Unit) := by
  intro cursor
  exact (cursor.rest_forward ▸ (List.tail_sublist _).length_le :)

theorem onward_advance : Onward advance := by
  intro cursor
  refine onward_get.bind (fun cursor => ?_) cursor
  split
  · exact onward_fail _
  · exact onward_forward.bind fun _ => onward_pure _

theorem onward_expectRest (literal chars : List Char) : Onward (expectRest literal chars) := by
  induction chars with
  | nil => exact onward_pure ()
  | cons c more ih =>
    apply onward_get.bind
    intro cursor
    split
    · exact onward_fail _
    · split
      · exact onward_forward.bind fun _ => ih
      · exact onward_unexpected _

theorem onward_expect (literal : List Char) : Onward (expect literal) := onward_expectRest literal _

theorem bind_eq_ok {step : Scan α} {next : α → Scan β} {cursor after : Cursor} {value : β}
    (done : (step >>= next) cursor = .ok value after) :
    ∃ first middle, step cursor = .ok first middle ∧ next first middle = .ok value after := by
  cases taken : step cursor with
  | ok first middle => exact ⟨first, middle, rfl, (bind_ok taken).symm.trans done⟩
  | error problem middle => simp [bind_error taken] at done

theorem Onward.ok {step : Scan α} (onward : Onward step) {cursor after : Cursor} {value : α}
    (done : step cursor = .ok value after) : after.rest.length ≤ cursor.rest.length := by
  simpa [stop, done] using onward cursor

theorem Consumes.bind {step : Scan α} {next : α → Scan β} {cursor : Cursor} (first : Consumes step cursor)
    (rest : ∀ value, Onward (next value)) : Consumes (step >>= next) cursor := by
  intro value after done
  obtain ⟨middle, between, taken, finished⟩ := bind_eq_ok done
  exact Nat.lt_of_le_of_lt ((rest middle).ok finished) (first middle between taken)

theorem Consumes.after_get {next : Cursor → Scan β} {cursor : Cursor} (rest : Consumes (next cursor) cursor) :
    Consumes (get >>= next) cursor := rest

theorem consumes_failAt (position : Position) (cause : Cause) (cursor : Cursor) :
    Consumes (failAt position cause : Scan α) cursor := by
  intro _ _ done
  cases done

theorem consumes_fail (cause : Cause) (cursor : Cursor) : Consumes (fail cause : Scan α) cursor :=
  .after_get (consumes_failAt _ _ _)

theorem consumes_unexpected (expected : String) (cursor : Cursor) :
    Consumes (unexpected expected : Scan α) cursor := .after_get (consumes_fail _ _)

theorem consumes_advance (cursor : Cursor) : Consumes advance cursor := by
  intro value after done
  obtain ⟨_, _, got, done⟩ := bind_eq_ok done
  cases got
  cases ahead : cursor.rest with
  | nil =>
    simp only [Cursor.next?, ahead, List.head?_nil] at done
    cases done
  | cons c rest =>
    simp only [Cursor.next?, ahead, List.head?_cons] at done
    cases done
    simp [ahead]

theorem consumes_readWhile {keep : Char → Bool} {cursor : Cursor} {c : Char} (ahead : cursor.next? = some c)
    (kept : keep c) : Consumes (readWhile keep) cursor := by
  intro value after done
  cases done
  obtain ⟨rest, split⟩ : ∃ rest, cursor.rest = c :: rest := by
    cases atRest : cursor.rest with
    | nil => simp [Cursor.next?, atRest] at ahead
    | cons d rest => simp_all [Cursor.next?]
  simp only [Cursor.rest_pastWhile, split, List.dropWhile_cons, kept, if_true, List.length_cons]
  exact Nat.lt_succ_of_le (List.dropWhile_sublist keep).length_le

theorem rest_of_expectRest {literal chars : List Char} {cursor after : Cursor}
    (done : expectRest literal chars cursor = .ok () after) : cursor.rest = chars ++ after.rest := by
  induction chars generalizing cursor with
  | nil => cases done; rfl
  | cons c more ih =>
    obtain ⟨_, _, got, done⟩ := bind_eq_ok done
    cases got
    cases ahead : cursor.rest with
    | nil =>
      simp only [Cursor.next?, ahead, List.head?_nil] at done
      cases done
    | cons d rest =>
      simp only [Cursor.next?, ahead, List.head?_cons] at done
      split at done
      next same =>
        obtain ⟨_, middle, moved, done⟩ := bind_eq_ok done
        cases moved
        have tail := ih done
        simp only [Cursor.rest_forward, ahead, List.tail_cons] at tail
        simp [same, tail]
      next => cases done

theorem rest_of_expect {literal : List Char} {cursor after : Cursor} (done : expect literal cursor = .ok () after) :
    cursor.rest = literal ++ after.rest := rest_of_expectRest done

theorem consumes_expect {literal : List Char} (cursor : Cursor) (long : 0 < literal.length) :
    Consumes (expect literal) cursor := by
  intro _ after done
  rw [rest_of_expect done, List.length_append]
  omega

end
end Scan
end Stencil
