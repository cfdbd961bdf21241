import Mathlib
import Stencil.Proofs.DiagnosticPlaces
import Stencil.Proofs.Lookahead

/-! Operations on a cursor, one after another. Each goes on over a text that stands where the cursor is, also where it fails, so
the cursor tells at all times how much of the source has been read, and the line and the column to which that reaches. -/

namespace Stencil
open Diagnostic Text

namespace Scan

inductive Operation where
  | look (ahead : Nat)
  | advance
  | startsWith (literal : List Char)
  | readWhile (keep : Char → Bool)
  | skipBlanks
  | expect (literal : List Char)

inductive Answer where
  | character (found : Option Char)
  | flag (holds : Bool)
  | text (content : String)
  | nothing
  deriving DecidableEq, Repr

def Operation.perform : Operation → Scan Answer
  | .look ahead => do return .character ((← get).look ahead)
  | .advance => do return .character (some (← Scan.advance))
  | .startsWith literal => do return .flag ((← get).startsWith literal)
  | .readWhile keep => do return .text (← Scan.readWhile keep)
  | .skipBlanks => do
    Scan.skipBlanks
    return .nothing
  | .expect literal => do
    Scan.expect literal
    return .nothing

def outcome {α : Type} (step : Scan α) (cursor : Cursor) : Except Diagnostic α :=
  match step cursor with
  | .ok value _ => .ok value
  | .error problem _ => .error problem

def Longest (fits : List Char → Prop) (text : List Char) : Prop := fits text ∧ ∀ other, fits other → other.length ≤ text.length

/-- What an operation consumes of the characters that are left, and what comes of it. The place that it reaches is the place of
its diagnostic. -/
inductive Yields (source : String) (rest : List Char) (reached : Position) :
    Operation → List Char → Except Diagnostic Answer → Prop
  | look (ahead : Nat) : Yields source rest reached (.look ahead) [] (.ok (.character rest[ahead]?))
  | startsWith (literal : List Char) :
      Yields source rest reached (.startsWith literal) [] (.ok (.flag (decide (literal <+: rest))))
  | advance {c : Char} (ahead : rest.head? = some c) : Yields source rest reached .advance [c] (.ok (.character (some c)))
  | ended (nothing : rest = []) :
      Yields source rest reached .advance [] (.error ⟨.endOfInput .character, some reached, some source⟩)
  | readWhile {keep : Char → Bool} {text : List Char}
      (longest : Longest (fun text => text <+: rest ∧ ∀ c ∈ text, keep c = true) text) :
      Yields source rest reached (.readWhile keep) text (.ok (.text (String.ofList text)))
  | skipBlanks {text : List Char} (longest : Longest (fun text => text <+: rest ∧ ∀ c ∈ text, isBlank c = true) text) :
      Yields source rest reached .skipBlanks text (.ok .nothing)
  | expected {literal : List Char} (stands : literal <+: rest) :
      Yields source rest reached (.expect literal) literal (.ok .nothing)
  | cutShort {literal text : List Char} (longest : Longest (fun text => text <+: literal ∧ text <+: rest) text)
      (short : text ≠ literal) (nothing : rest.drop text.length = []) :
      Yields source rest reached (.expect literal) text
        (.error ⟨.endOfInput (.literal (String.ofList literal)), some reached, some source⟩)
  | unexpected {literal text : List Char} {found : Char}
      (longest : Longest (fun text => text <+: literal ∧ text <+: rest) text) (short : text ≠ literal)
      (there : (rest.drop text.length).head? = some found) :
      Yields source rest reached (.expect literal) text
        (.error ⟨.unexpectedCharacter (quoted (String.ofList literal)) (String.ofList [found]), some reached, some source⟩)

section
variable {text rest literal : List Char} {cursor : Cursor}

theorem longest_takeWhile (keep : Char → Bool) (rest : List Char) :
    Longest (fun text => text <+: rest ∧ ∀ c ∈ text, keep c = true) (rest.takeWhile keep) := by
  refine ⟨⟨List.takeWhile_prefix keep, fun c => List.mem_takeWhile_imp⟩, ?_⟩
  rintro text ⟨⟨behind, rfl⟩, kept⟩
  rw [List.takeWhile_append_of_pos kept, List.length_append]
  exact Nat.le_add_right _ _

/-- What two texts have in common ends where they differ. -/
theorem longest_common {c : Char} {more : List Char} (differs : rest.head? ≠ some c) :
    Longest (fun other => other <+: text ++ c :: more ∧ other <+: text ++ rest) text := by
  refine ⟨⟨List.prefix_append .., List.prefix_append ..⟩, ?_⟩
  rintro other ⟨first, second⟩
  by_contra longer
  -- A longer text would hold what stands behind this one, in both.
  obtain ⟨d, tail, rfl⟩ : ∃ d tail, other = text ++ d :: tail := by
    obtain ⟨tail, rfl⟩ := List.prefix_of_prefix_length_le (List.prefix_append text _) first (by omega)
    cases tail with
    | nil => simp at longer
    | cons d tail => exact ⟨d, tail, rfl⟩
  rw [List.prefix_append_right_inj, List.cons_prefix_cons] at first
  rw [List.prefix_append_right_inj] at second
  obtain ⟨rfl, -⟩ := first
  obtain ⟨behind, rfl⟩ := second
  exact differs rfl

theorem expectRest_ends (literal chars : List Char) (cursor : Cursor) :
    (chars <+: cursor.rest ∧ expectRest literal chars cursor = .ok () (cursor.forwardBy chars.length)) ∨
    ∃ text c more rest, chars = text ++ c :: more ∧ cursor.rest = text ++ rest ∧ rest.head? ≠ some c ∧
      expectRest literal chars cursor = .error
        ⟨match rest.head? with
          | none => .endOfInput (.literal (String.ofList literal))
          | some found => .unexpectedCharacter (quoted (String.ofList literal)) (String.ofList [found]),
          some (cursor.forwardBy text.length).position, some cursor.source⟩ (cursor.forwardBy text.length) := by
  induction chars generalizing cursor with
  | nil => exact .inl ⟨List.nil_prefix, rfl⟩
  | cons c more ih =>
    obtain ⟨source, before, rest, line, column⟩ := cursor
    cases rest with
    | nil => exact .inr ⟨[], c, more, [], rfl, rfl, nofun, rfl⟩
    | cons found rest =>
      by_cases same : found = c
      · subst same
        have step : expectRest literal (found :: more) ⟨source, before, found :: rest, line, column⟩ =
            expectRest literal more (Cursor.forward ⟨source, before, found :: rest, line, column⟩) := by
          rw [expectRest, get_bind]
          simp only [Cursor.next?, List.head?_cons, if_true]
          rfl
        rw [step]
        rcases ih (Cursor.forward ⟨source, before, found :: rest, line, column⟩) with
          ⟨stands, read⟩ | ⟨text, c, others, behind, split, ahead, differs, failed⟩
        · exact .inl ⟨List.cons_prefix_cons.mpr ⟨rfl, stands⟩, read⟩
        · refine .inr ⟨found :: text, c, others, behind, by rw [split]; rfl, ?_, differs, failed⟩
          exact congrArg (found :: ·) ahead
      · refine .inr ⟨[], c, more, found :: rest, rfl, rfl, by simpa using same, ?_⟩
        rw [expectRest, get_bind]
        simp only [Cursor.next?, List.head?_cons, same, if_false]
        rfl

private theorem yields_expect (literal : List Char) (cursor : Cursor) :
    ∃ text, text <+: cursor.rest ∧ stop (Operation.expect literal).perform cursor = cursor.forwardBy text.length ∧
      Yields cursor.source cursor.rest (cursor.forwardBy text.length).position (.expect literal) text
        (outcome (Operation.expect literal).perform cursor) := by
  rcases expectRest_ends literal literal cursor with ⟨stands, read⟩ | ⟨text, c, more, rest, split, ahead, differs, failed⟩
  · have performed : (Operation.expect literal).perform cursor = .ok .nothing (cursor.forwardBy literal.length) := bind_ok read
    refine ⟨literal, stands, ?_, ?_⟩
    · simp only [stop, performed]
    · simp only [outcome, performed]
      exact .expected stands
  · have performed : (Operation.expect literal).perform cursor = _ := bind_error failed
    have longest : Longest (fun other => other <+: literal ∧ other <+: cursor.rest) text := by
      rw [split, ahead]
      exact longest_common differs
    have short : text ≠ literal := by simp [split]
    have behind : cursor.rest.drop text.length = rest := by rw [ahead, List.drop_left]
    refine ⟨text, ahead ▸ List.prefix_append .., ?_, ?_⟩
    · simp only [stop, performed]
    simp only [outcome, performed]
    cases found : rest.head? with
    | none => exact .cutShort longest short (by rw [behind, List.head?_eq_none_iff.mp found])
    | some c => exact .unexpected longest short (by rw [behind, found])

/-- What an operation consumes stands at the cursor, and the cursor goes on behind it. -/
theorem yields_perform (operation : Operation) (cursor : Cursor) :
    ∃ text, text <+: cursor.rest ∧ stop operation.perform cursor = cursor.forwardBy text.length ∧
      Yields cursor.source cursor.rest (cursor.forwardBy text.length).position operation text
        (outcome operation.perform cursor) := by
  cases operation with
  | look ahead => exact ⟨[], List.nil_prefix, rfl, .look ahead⟩
  | startsWith literal =>
    refine ⟨[], List.nil_prefix, rfl, ?_⟩
    have told : outcome (Operation.startsWith literal).perform cursor = .ok (.flag (decide (literal <+: cursor.rest))) := by
      rw [show decide (literal <+: cursor.rest) = literal.isPrefixOf cursor.rest by
        rw [Bool.eq_iff_iff, decide_eq_true_iff, List.isPrefixOf_iff_prefix]]
      rfl
    rw [told]
    exact .startsWith literal
  | advance =>
    obtain ⟨source, before, rest, line, column⟩ := cursor
    cases rest with
    | nil => exact ⟨[], List.nil_prefix, rfl, .ended rfl⟩
    | cons c rest => exact ⟨[c], List.cons_prefix_cons.mpr ⟨rfl, List.nil_prefix⟩, rfl, .advance rfl⟩
  | readWhile keep => exact ⟨_, List.takeWhile_prefix keep, rfl, .readWhile (longest_takeWhile keep _)⟩
  | skipBlanks => exact ⟨_, List.takeWhile_prefix isBlank, rfl, .skipBlanks (longest_takeWhile isBlank _)⟩
  | expect literal => exact yields_expect literal cursor

end
end Scan

namespace Cursor
open Scan

def afterAll (cursor : Cursor) : List Operation → Cursor
  | [] => cursor
  | operation :: operations => (stop operation.perform cursor).afterAll operations

theorem ahead_perform (operation : Operation) (cursor : Cursor) : cursor.Ahead (stop operation.perform cursor) := by
  obtain ⟨text, stands, moved, -⟩ := yields_perform operation cursor
  exact ⟨text.length, stands.length_le, moved⟩

theorem ahead_afterAll (operations : List Operation) (cursor : Cursor) : cursor.Ahead (cursor.afterAll operations) := by
  induction operations generalizing cursor with
  | nil => exact .refl cursor
  | cons operation operations ih => exact (ahead_perform operation cursor).trans (ih _)

end Cursor

namespace Scan

def slice (content : String) (start stop : Nat) : List Char := (content.toList.take stop).drop start

/-- Whatever was done before, the offset lies in the source, line and column are those of the text before it, and what an
operation consumes is the text from the offset before it to the offset after it. -/
theorem operations_keep_place (source content : String) (earlier : List Operation) :
    let cursor := (Cursor.ofSource source content).afterAll earlier
    cursor.offset ≤ content.length ∧ cursor.position = placeAt content cursor.offset ∧
      ∀ operation : Operation,
        let after := stop operation.perform cursor
        cursor.offset ≤ after.offset ∧
          Yields source (content.toList.drop cursor.offset) after.position operation
            (slice content cursor.offset after.offset) (outcome operation.perform cursor) := by
  intro cursor
  obtain ⟨count, inside, reached⟩ := Cursor.ahead_afterAll earlier (.ofSource source content)
  change cursor = .into source content count at reached
  replace inside : count ≤ content.length := String.length_toList ▸ inside
  have offset : cursor.offset = count := by rw [reached, Cursor.offset_into inside]
  have rest : cursor.rest = content.toList.drop count := by rw [reached, rest_into]
  refine ⟨by rw [offset]; exact inside, by rw [offset, reached, position_into], ?_⟩
  intro operation after
  obtain ⟨text, stands, moved, yields⟩ := yields_perform operation cursor
  have further : after.offset = count + text.length := by
    rw [← offset, ← Cursor.offset_forwardBy stands.length_le]
    exact congrArg Cursor.offset moved
  have between : slice content count (count + text.length) = text := by
    rw [slice, List.drop_take, Nat.add_sub_cancel_left, ← rest]
    exact (List.prefix_iff_eq_take.mp stands).symm
  have named : cursor.source = source := by rw [reached, Cursor.source_forwardBy]; rfl
  rw [offset, further, between, ← rest, ← named, show after.position = _ from congrArg Cursor.position moved]
  exact ⟨Nat.le_add_right count _, yields⟩

example : ((Cursor.ofSource rootName "a\nbc").afterAll [.advance, .expect ['\n', 'b', 'd']]).position = ⟨2, 1⟩ := by cbv

end Scan
end Stencil
