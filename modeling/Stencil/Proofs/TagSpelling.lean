import Stencil.Proofs.ReadingFaults

/-! How tags are spelled. A control tag opens with a brace and a percent sign and then has its keyword, a partial tag opens
with a brace and an angle bracket and then has the name; only blanks stand between. -/

namespace Stencil
open Text Scan

namespace Token

namespace Form

def keyword? : Form → Option Keyword
  | .loop _ _ => some .loop
  | .choice _ => some .choice
  | .otherwise => some .otherwise
  | .close => some .close
  | _ => none

end Form

/-- A tag opens here and its first word is this: only blanks stand before the word, and what follows is no part of it. -/
def OpensWith (opening : List Char) (keep : Char → Bool) (word : String) (ahead : List Char) : Prop :=
  ∃ gap rest, ahead = opening ++ gap ++ word.toList ++ rest ∧ (∀ c ∈ gap, isBlank c = true) ∧
    ∀ c ∈ rest.head?, keep c = false

private theorem opensWith_of_reading {opening : List Char} {keep : Char → Bool} {word : String}
    {cursor first second after : Cursor} (opened : expect opening cursor = .ok () first)
    (skipped : skipBlanks first = .ok () second) (read : readWhile keep second = .ok word after) :
    OpensWith opening keep word cursor.rest := by
  cases skipped
  cases read
  refine ⟨first.rest.takeWhile isBlank, (first.rest.dropWhile isBlank).dropWhile keep, ?_, ?_, ?_⟩
  · rw [rest_of_expect opened, String.toList_ofList, Cursor.rest_pastWhile, List.append_assoc, List.append_assoc,
      List.takeWhile_append_dropWhile, List.takeWhile_append_dropWhile]
  · exact fun c => List.mem_takeWhile_imp
  · intro c ahead
    have stops := List.head?_dropWhile_not keep (first.rest.dropWhile isBlank)
    rw [Option.mem_def.mp ahead] at stops
    simpa using stops

private theorem gives_named (opening closing : List Char) (expected : String) (form : String → Form) :
    Gives (do expect opening; skipBlanks; let name ← readName expected; skipBlanks; expect closing; return form name)
      fun made => ∃ name, made = form name :=
  .after fun _ => .after fun _ => .after fun name => .after fun _ => .after fun _ => gives_pure ⟨name, rfl⟩

private theorem gives_loop : Gives readLoop fun form => form.keyword? = some .loop := by
  apply Gives.after
  intro _
  apply Gives.after
  intro iterable
  split
  · exact gives_unexpected _ _
  apply Gives.after
  intro _
  apply Gives.after
  intro _
  apply Gives.after
  intro _
  split
  · exact .after fun _ => .after fun binding => .after fun _ => .after fun _ => gives_pure rfl
  · exact gives_unexpected _ _

private theorem gives_keyword (keyword : Keyword) :
    Gives (readKeyword keyword) fun form => form.keyword? = some keyword := by
  cases keyword with
  | loop => exact gives_loop
  | choice => exact .after fun _ => gives_pure rfl
  | otherwise => exact .after fun _ => .after fun _ => gives_pure rfl
  | close => exact .after fun _ => .after fun _ => gives_pure rfl

private theorem control_of_readControl {cursor after : Cursor} {form : Form} (done : readControl cursor = .ok form after) :
    ∃ keyword inner, form.keyword? = some keyword ∧ cursor.Ahead inner ∧ readKeyword keyword inner = .ok form after ∧
      OpensWith controlOpen Expression.isIdentifierChar keyword.text cursor.rest := by
  obtain ⟨_, first, opened, done⟩ := bind_eq_ok done
  obtain ⟨_, second, skipped, done⟩ := bind_eq_ok done
  obtain ⟨_, _, got, done⟩ := bind_eq_ok done
  cases got
  split at done
  · cases done
  obtain ⟨word, inner, read, done⟩ := bind_eq_ok done
  cases known : Keyword.ofText? word with
  | none =>
    simp only [known] at done
    cases done
  | some keyword =>
    simp only [known] at done
    have same : keyword.text = word := by simpa using List.find?_some known
    have between := ((points_expect _ _).moves _ _ opened).trans ((points_skipBlanks _).moves _ _ skipped)
    refine ⟨keyword, inner, gives_keyword keyword inner form after done, ?_, done, ?_⟩
    · exact between.trans ((points_readWhile _ _).moves _ _ read)
    · exact same ▸ opensWith_of_reading opened skipped read

/-- A control tag is read by the reader for its keyword. -/
theorem control_of_readForm {cursor after : Cursor} {form : Form} {keyword : Keyword}
    (done : readForm cursor = .ok form after) (tag : form.keyword? = some keyword) :
    ∃ inner, cursor.Ahead inner ∧ readKeyword keyword inner = .ok form after ∧
      OpensWith controlOpen Expression.isIdentifierChar keyword.text cursor.rest := by
  obtain ⟨_, _, got, done⟩ := bind_eq_ok done
  cases got
  split at done
  · obtain ⟨name, rfl⟩ := gives_named variableOpen variableClose "a variable name" .variable _ _ _ done
    cases tag
  split at done
  · obtain ⟨other, inner, same, ahead, read, spelled⟩ := control_of_readControl done
    cases tag.symm.trans same
    exact ⟨inner, ahead, read, spelled⟩
  split at done
  · obtain ⟨name, rfl⟩ := gives_named inclusionOpen inclusionClose "a partial name" .inclusion _ _ _ done
    cases tag
  · cases done
    cases tag

theorem inclusion_of_readForm {cursor after : Cursor} {name : String} (done : readForm cursor = .ok (.inclusion name) after) :
    OpensWith inclusionOpen (fun c => !isNameEnd c) name cursor.rest := by
  obtain ⟨_, _, got, done⟩ := bind_eq_ok done
  cases got
  split at done
  · obtain ⟨_, same⟩ := gives_named variableOpen variableClose "a variable name" .variable _ _ _ done
    cases same
  split at done
  · obtain ⟨_, _, tag, _⟩ := control_of_readControl done
    cases tag
  split at done
  · obtain ⟨_, first, opened, done⟩ := bind_eq_ok done
    obtain ⟨_, second, skipped, done⟩ := bind_eq_ok done
    obtain ⟨word, third, named, done⟩ := bind_eq_ok done
    obtain ⟨_, fourth, _, done⟩ := bind_eq_ok done
    obtain ⟨_, _, _, done⟩ := bind_eq_ok done
    cases done
    obtain ⟨_, _, read, named⟩ := bind_eq_ok named
    split at named
    · cases named
    · cases named
      exact opensWith_of_reading opened skipped read
  · cases done

end Token
end Stencil
