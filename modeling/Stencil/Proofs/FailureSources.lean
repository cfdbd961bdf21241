import Mathlib
import Stencil.Proofs.CompileFailures
import Stencil.Proofs.DiagnosticPlaces
import Stencil.Proofs.TagGrammar

/-! Which source a failure is put down to. A source fails in its own text, or in the text of a partial that one of its tags
stands for, and so on inwards. The message ends by naming the innermost of these partials, and names none where the root
fails in its own text. Only a partial with the name that the root goes by is taken for the root. -/

namespace Stencil
open Text
open CompileFailures (Completable completable_iff)

namespace Diagnostic
variable {diagnostic : Diagnostic} {name other : String}

/-- The message ends by naming this partial. -/
def Names (diagnostic : Diagnostic) (name : String) : Prop :=
  ∃ said, diagnostic.message = said ++ " in partial '" ++ name ++ "'"

theorem names_of_source (own : diagnostic.source = some name) (filled : name ≠ "") (apart : name ≠ rootName) :
    diagnostic.Names name := by
  refine ⟨diagnostic.cause.message ++ placed diagnostic.position, ?_⟩
  simp [message, own, attributed, filled, apart, String.append_assoc]

/-- A message that puts a place in the root ends with the place. -/
theorem not_names_of_root {position : Position} (place : diagnostic.position = some position)
    (root : diagnostic.source = some rootName) (name : String) : ¬ diagnostic.Names name := by
  rintro ⟨said, same⟩
  have last := congrArg (fun text => text.toList.getLast?) same
  simp [message, place, placed, root, attributed, List.getLast?_cons] at last

/-- What such a message has behind its last blank. -/
private theorem Names.last_word (names : diagnostic.Names name) (free : ∀ c ∈ name.toList, isBlank c = false) :
    diagnostic.message.toList.reverse.takeWhile (fun c => !isBlank c) = '\'' :: name.toList.reverse ++ ['\''] := by
  obtain ⟨said, same⟩ := names
  have spelled : diagnostic.message.toList.reverse =
      ('\'' :: name.toList.reverse ++ ['\'']) ++ ' ' :: (said ++ " in partial").toList.reverse := by simp [same]
  have mark : isBlank '\'' = false := by decide
  have blank : isBlank ' ' = true := by decide
  rw [spelled, List.takeWhile_append_of_pos]
  · simp [blank]
  · simpa [or_imp, forall_and, mark] using free

theorem Names.unique (names : diagnostic.Names name) (names' : diagnostic.Names other)
    (free : ∀ c ∈ name.toList, isBlank c = false) (free' : ∀ c ∈ other.toList, isBlank c = false) : other = name := by
  have same := (names'.last_word free').symm.trans (names.last_word free)
  simpa [String.toList_inj] using same

end Diagnostic

namespace FailureSources
variable {registry : Registry} {chain : List String} {source content : String}

/-- The tokens of a source fit up to this one, which does not. -/
structure StopsAt (registry : Registry) (chain : List String) (source content : String) (before : List Token)
    (token : Token) : Prop where
  read : ∃ after, (tokensFrom (.ofSource source content)).1 = before ++ token :: after
  sound : Completable registry chain source before
  unsound : ¬ Completable registry chain source (before ++ [token])

/-- A source fails inside these partials, each of which the one before includes; in its own text if there are none. -/
inductive Fails (registry : Registry) : List String → String → String → List String → Prop
  /-- One of its tags does not fit. If it names a partial, that one is not registered or is being expanded. -/
  | tag {chain : List String} {source content : String} {before : List Token} {token : Token}
      (stops : StopsAt registry chain source content before token)
      (own : ∀ name, token.form = .inclusion name → registry.find? name = none ∨ name ∈ chain) :
      Fails registry chain source content []
  /-- All tokens fit, but no more can be read or a block is open. -/
  | ending {chain : List String} {source content : String}
      (sound : Completable registry chain source (tokensFrom (.ofSource source content)).1)
      (refused : ∀ tree, (parse registry chain source (Lexer.ofSource source content)).1.result ≠ .ok tree) :
      Fails registry chain source content []
  | within {chain : List String} {source content name inner : String} {before : List Token} {token : Token}
      {trail : List String} (stops : StopsAt registry chain source content before token)
      (tag : token.form = .inclusion name) (registered : registry.find? name = some inner) (fresh : name ∉ chain)
      (fails : Fails registry (chain ++ [name]) name inner trail) : Fails registry chain source content (name :: trail)

private theorem completable_front {first rest : List Token} (sound : Completable registry chain source (first ++ rest)) :
    Completable registry chain source first := by
  obtain ⟨draft, taken⟩ := completable_iff.mp sound
  obtain ⟨middle, taken, _⟩ := Draft.acceptAll_append_ok.mp taken
  exact completable_iff.mpr ⟨middle, taken⟩

namespace StopsAt
variable {before more : List Token} {token other : Token}

theorem not_beyond (stops : StopsAt registry chain source content before token) (rest : List Token) :
    ¬ Completable registry chain source (before ++ token :: rest) := by
  intro sound
  rw [List.append_cons] at sound
  exact stops.unsound (completable_front sound)

private theorem first_beyond {between rest rest' : List Token} (stops : StopsAt registry chain source content before token)
    (sound : Completable registry chain source (before ++ between)) (split : token :: rest = between ++ other :: rest') :
    other = token := by
  cases between with
  | nil =>
    cases split
    rfl
  | cons first between =>
    cases split
    exact absurd sound (stops.not_beyond _)

theorem unique (stops : StopsAt registry chain source content before token)
    (stops' : StopsAt registry chain source content more other) : other = token := by
  obtain ⟨after, read⟩ := stops.read
  obtain ⟨after', read'⟩ := stops'.read
  rcases List.append_eq_append_iff.mp (read.symm.trans read') with ⟨between, rfl, split⟩ | ⟨between, rfl, split⟩
  · exact stops.first_beyond stops'.sound split
  · exact (stops'.first_beyond stops.sound split).symm

theorem not_sound (stops : StopsAt registry chain source content before token) :
    ¬ Completable registry chain source (tokensFrom (.ofSource source content)).1 := by
  obtain ⟨after, read⟩ := stops.read
  rw [read]
  exact stops.not_beyond after

theorem of_refused {after : List Token} {draft : Draft} {failure : CompileFailure}
    (read : (tokensFrom (.ofSource source content)).1 = before ++ token :: after)
    (taken : Draft.empty.acceptAll (expand registry chain) source before = .ok draft)
    (refused : (draft.accept (expand registry chain) source token).result = .error failure) :
    StopsAt registry chain source content before token := by
  refine ⟨⟨after, read⟩, completable_iff.mpr ⟨draft, taken⟩, ?_⟩
  intro sound
  obtain ⟨final, through⟩ := completable_iff.mp sound
  rw [Draft.acceptAll_append, taken] at through
  obtain ⟨next, fits, _⟩ := Draft.acceptAll_cons_ok.mp through
  simp [Draft.accept_ok_iff.mpr fits] at refused

end StopsAt

/-- A source fails inside the same partials however that is found. -/
theorem Fails.unique {trail other : List String} (fails : Fails registry chain source content trail)
    (fails' : Fails registry chain source content other) : other = trail := by
  induction fails generalizing other with
  | tag stops own =>
    cases fails' with
    | within stops' tag registered fresh _ =>
      rcases own _ (stops.unique stops' ▸ tag) with absent | used
      · simp [absent] at registered
      · exact absurd used fresh
    | _ => rfl
  | ending sound refused =>
    cases fails' with
    | within stops' => exact absurd sound stops'.not_sound
    | _ => rfl
  | within stops tag registered fresh _ ih =>
    cases fails' with
    | tag stops' own =>
      rcases own _ (stops'.unique stops ▸ tag) with absent | used
      · simp [absent] at registered
      · exact absurd used fresh
    | ending sound => exact absurd sound stops.not_sound
    | within stops' tag' registered' _ fails' =>
      cases stops.unique stops'
      cases tag.symm.trans tag'
      cases registered.symm.trans registered'
      rw [ih fails']

/-- The name in a tag is not empty and has no blanks. -/
theorem StopsAt.name {before : List Token} {token : Token} {name : String}
    (stops : StopsAt registry chain source content before token) (tag : token.form = .inclusion name) :
    name ≠ "" ∧ ∀ c ∈ name.toList, isBlank c = false := by
  obtain ⟨after, read⟩ := stops.read
  have member : token ∈ (tokensFrom (.ofSource source content)).1 := by simp [read]
  obtain ⟨there, after, _, taken⟩ := read_of_mem_tokensFrom member
  obtain ⟨_, form, rfl, formed⟩ := Token.read_some taken
  cases tag
  have opens : Token.opensTag there.rest = true := by
    obtain ⟨gap, rest, ahead, _⟩ := Token.inclusion_of_readForm formed
    rw [ahead]
    rfl
  obtain ⟨text, _, _, spelled⟩ := (Token.exactlyAt_readForm opens _ after).mp formed
  cases spelled with
  | inclusion blank filled free =>
    refine ⟨by simpa using filled, ?_⟩
    intro c member
    rw [String.toList_ofList] at member
    exact (Bool.or_eq_false_iff.mp (free c member)).1

theorem Fails.named {trail : List String} (fails : Fails registry chain source content trail) :
    ∀ name ∈ trail, name ≠ "" ∧ ∀ c ∈ name.toList, isBlank c = false := by
  induction fails with
  | tag | ending => simp
  | within stops tag _ _ _ ih => exact List.forall_mem_cons.mpr ⟨stops.name tag, ih⟩

private theorem source_of_ofPieces {site : Condition.Site} {pieces : List Expression.Piece} {diagnostic : Diagnostic}
    (broken : Condition.ofPieces site pieces = .error (.diagnosed diagnostic)) : diagnostic.source = some site.source := by
  by_cases filled : pieces = []
  · subst filled
    cases broken
    rfl
  · obtain ⟨_, _, _, _, rfl⟩ := Condition.blames_of_ofPieces filled broken
    rfl

private theorem source_of_conclude {draft : Draft} {diagnostic : Diagnostic}
    (failed : Draft.conclude source (tokensFrom (.ofSource source content)).2.1 draft = .error (.diagnosed diagnostic)) :
    diagnostic.source = some source := by
  cases fault : (tokensFrom (.ofSource source content)).2.1 with
  | some problem =>
    rw [fault] at failed
    cases failed
    exact (pointsInto_of_fault fault).1
  | none =>
    rw [fault] at failed
    obtain ⟨nodes, _ | ⟨enclosure, outer⟩⟩ := draft <;> cases failed
    rfl

/-- A diagnostic puts a failure in the innermost of the partials, or in the source itself if there are none. -/
theorem fails_of_parse {diagnostic : Diagnostic}
    (failed : (parse registry chain source (Lexer.ofSource source content)).1.result = .error (.diagnosed diagnostic)) :
    ∃ trail, Fails registry chain source content trail ∧ diagnostic.source = some (trail.getLastD source) := by
  induction chain using registry.chain_induction generalizing source content with
  | step chain ih =>
    rcases parse_error.mp failed with ⟨before, token, after, draft, read, taken, refused⟩ | ⟨draft, taken, ended⟩
    · have stops : StopsAt registry chain source content before token := .of_refused read taken refused
      cases Draft.refuses_of_accept refused with
      | misplaced tag imbalance =>
        refine ⟨[], .tag stops fun name same => ?_, rfl⟩
        rcases tag with tag | tag <;> cases tag.symm.trans same
      | choice broken => exact ⟨[], .tag stops nofun, source_of_ofPieces broken⟩
      | @inclusion position name _ failed =>
        rcases expand_error_iff.mp failed with ⟨absent, same⟩ | ⟨inner, registered, ⟨used, same⟩ | ⟨fresh, failed⟩⟩
        · cases same
          refine ⟨[], .tag stops fun other same => ?_, rfl⟩
          cases same
          exact .inl absent
        · cases same
          refine ⟨[], .tag stops fun other same => ?_, rfl⟩
          cases same
          exact .inr used
        · obtain ⟨trail, fails, own⟩ := ih name inner registered fresh failed
          exact ⟨name :: trail, .within stops rfl registered fresh fails, by rw [own, List.getLastD_cons]⟩
    · refine ⟨[], .ending (completable_iff.mpr ⟨draft, taken⟩) ?_, source_of_conclude ended⟩
      simp [failed]

/-- A failure that is diagnosed happened inside certain partials or in the root's own text. The message ends by naming the
innermost partial, and no other name without blanks can be read there. It names none for the root, nor for a partial that
goes by the root's name. -/
theorem compile_names_source {partials : Registry} {globals : Value} {diagnostic : Diagnostic}
    (failed : (Template.compile content partials globals).result = .error (.diagnosed diagnostic)) :
    ∃ trail, (∀ other, Fails partials [] rootName content other ↔ other = trail) ∧
      (trail = [] ∨ trail.getLast? = some rootName → ∀ name, ¬ diagnostic.Names name) ∧
      ∀ name, trail.getLast? = some name → name ≠ rootName → diagnostic.Names name ∧
        ∀ other, (∀ c ∈ other.toList, isBlank c = false) → diagnostic.Names other → other = name := by
  obtain ⟨trail, fails, own⟩ := fails_of_parse (Template.compile_error_iff.mp failed)
  rw [List.getLastD_eq_getLast?] at own
  refine ⟨trail, fun other => ⟨fails.unique, fun same => same ▸ fails⟩, ?_, ?_⟩
  · intro root
    obtain ⟨_, _, _, _, _, _, place, _⟩ := pointsInto_of_parse (Template.compile_error_iff.mp failed)
    apply Diagnostic.not_names_of_root place
    rcases root with rfl | root
    · exact own
    · rw [own, root]
      rfl
  · intro name last apart
    obtain ⟨filled, free⟩ := fails.named name (List.mem_of_getLast? last)
    have names : diagnostic.Names name := Diagnostic.names_of_source (by simp [own, last]) filled apart
    exact ⟨names, fun other free' names' => names.unique names' free free'⟩

def strayEnd : String := "\x7b% end %\x7d"

private theorem starts_with {token : Token} {after : Cursor}
    (read : Token.read? (.ofSource source content) = .ok (some token) after) :
    (tokensFrom (.ofSource source content)).1 = [] ++ token :: (tokensFrom after).1 := by
  rw [tokensFrom_token read]
  rfl

private theorem strayEnd_read (source : String) : Token.read? (.ofSource source strayEnd) =
    .ok (some ⟨some ⟨1, 0⟩, .close⟩) (Cursor.forwardBy 9 (.ofSource source strayEnd)) := by cbv

private theorem strayEnd_refused (registry : Registry) (chain : List String) (source : String) :
    (parse registry chain source (Lexer.ofSource source strayEnd)).1.result =
      .error (.diagnosed ⟨.unbalanced (.outside "end"), some ⟨1, 0⟩, some source⟩) :=
  parse_error.mpr (.inl ⟨_, _, _, _, starts_with (strayEnd_read source), rfl, rfl⟩)

private theorem included_fails {name : String} {after : Cursor}
    (read : Token.read? (.ofSource rootName content) = .ok (some ⟨some ⟨1, 0⟩, .inclusion name⟩) after) :
    (Template.compile content ⟨[(name, strayEnd)]⟩ (.dict [])).result =
        .error (.diagnosed ⟨.unbalanced (.outside "end"), some ⟨1, 0⟩, some name⟩) ∧
      Fails ⟨[(name, strayEnd)]⟩ [] rootName content [name] := by
  have registered : Registry.find? ⟨[(name, strayEnd)]⟩ name = some strayEnd := by simp [Registry.find?]
  have refused : (Draft.empty.accept (expand ⟨[(name, strayEnd)]⟩ []) rootName ⟨some ⟨1, 0⟩, .inclusion name⟩).result =
      .error (.diagnosed ⟨.unbalanced (.outside "end"), some ⟨1, 0⟩, some name⟩) := by
    simp only [Draft.accept, Compilation.result_bind, result_expand, registered, List.not_mem_nil, if_false, strayEnd_refused]
    rfl
  refine ⟨Template.compile_error_iff.mpr (parse_error.mpr (.inl ⟨_, _, _, _, starts_with read, rfl, refused⟩)), ?_⟩
  have stops : StopsAt ⟨[(name, strayEnd)]⟩ [name] name strayEnd [] ⟨some ⟨1, 0⟩, .close⟩ :=
    .of_refused (starts_with (strayEnd_read name)) rfl rfl
  exact .within (.of_refused (starts_with read) rfl refused) rfl registered List.not_mem_nil (.tag stops (by simp))

def heading : String := "\x7b> head\x7d"

theorem compile_names_source_heading :
    (Template.compile heading ⟨[("head", strayEnd)]⟩ (.dict [])).result =
        .error (.diagnosed ⟨.unbalanced (.outside "end"), some ⟨1, 0⟩, some "head"⟩) ∧
      Fails ⟨[("head", strayEnd)]⟩ [] rootName heading ["head"] ∧
      Diagnostic.Names ⟨.unbalanced (.outside "end"), some ⟨1, 0⟩, some "head"⟩ "head" := by
  have read : Token.read? (.ofSource rootName heading) = .ok (some ⟨some ⟨1, 0⟩, .inclusion "head"⟩)
      (Cursor.forwardBy 8 (.ofSource rootName heading)) := by cbv
  obtain ⟨failed, fails⟩ := included_fails read
  obtain ⟨trail, only, _, named⟩ := compile_names_source failed
  cases (only _).mp fails
  exact ⟨failed, fails, (named "head" rfl (by decide)).1⟩

def namesake : String := "\x7b> <template>\x7d"

/-- The partial fails by itself, but it goes by the name of the root, and the message does not tell them apart. -/
theorem namesake_unnamed :
    (Template.compile namesake ⟨[("<template>", strayEnd)]⟩ (.dict [])).result =
        .error (.diagnosed ⟨.unbalanced (.outside "end"), some ⟨1, 0⟩, some "<template>"⟩) ∧
      Fails ⟨[("<template>", strayEnd)]⟩ [] rootName namesake ["<template>"] ∧
      ¬ Diagnostic.Names ⟨.unbalanced (.outside "end"), some ⟨1, 0⟩, some "<template>"⟩ "<template>" := by
  have read : Token.read? (.ofSource rootName namesake) = .ok (some ⟨some ⟨1, 0⟩, .inclusion "<template>"⟩)
      (Cursor.forwardBy 14 (.ofSource rootName namesake)) := by cbv
  obtain ⟨failed, fails⟩ := included_fails read
  exact ⟨failed, fails, Diagnostic.not_names_of_root rfl rfl _⟩

end FailureSources
end Stencil
