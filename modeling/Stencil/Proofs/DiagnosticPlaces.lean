import Mathlib
import Stencil.Proofs.ConditionTests
import Stencil.Proofs.TagSpelling

/-! What diagnostics point at. A diagnostic names a source, the root or a partial, and a place in its text, and what it says
is to be seen there: the end, a character, a word or an operator that a reader did not expect, or the tag or the piece of a
condition that does not fit. -/

namespace Stencil
open Diagnostic

def Diagnostic.Malformation.word? : Malformation → Option String
  | .leftOver word | .noConnective word | .noRightOperand word | .operatorAsValue word => some word
  | .empty | .noValue => none

namespace Condition
open Expression (Piece)
variable {site : Site} {diagnostic : Diagnostic}

/-- The diagnostic is over one of the pieces: it tells its word, and its place. -/
def Blames (site : Site) (pieces : List Piece) (diagnostic : Diagnostic) : Prop :=
  ∃ piece ∈ pieces, ∃ malformation, malformation.word? = some piece.value ∧
    diagnostic = ⟨.malformed malformation, piece.position, some site.source⟩

private theorem blames_of_failAt {α : Type} {pieces : List Piece} {piece : Piece} {malformation : Malformation}
    (failed : (site.failAt piece.position malformation : Except CompileFailure α) = .error (.diagnosed diagnostic))
    (member : piece ∈ pieces) (told : malformation.word? = some piece.value) : Blames site pieces diagnostic := by
  cases failed
  exact ⟨piece, member, malformation, told, rfl⟩

private theorem Blames.mono {pieces more : List Piece} (blames : Blames site pieces diagnostic)
    (within : ∀ piece ∈ pieces, piece ∈ more) : Blames site more diagnostic := by
  obtain ⟨piece, member, told⟩ := blames
  exact ⟨piece, within piece member, told⟩

private theorem blames_of_valueOf {piece : Piece} {pieces : List Piece}
    (failed : valueOf site piece = .error (.diagnosed diagnostic)) (member : piece ∈ pieces) :
    Blames site pieces diagnostic := by
  unfold valueOf at failed
  split at failed
  · split at failed <;> cases failed
  · cases failed
  · split at failed <;> cases failed
  · exact blames_of_failAt failed member rfl

private theorem blames_of_test {pieces : List Piece} (filled : pieces ≠ [])
    (failed : test site pieces = .error (.diagnosed diagnostic)) : Blames site pieces diagnostic := by
  cases pieces with
  | nil => exact absurd rfl filled
  | cons first more =>
    simp only [test, bind, Except.bind] at failed
    split at failed
    next failure bad =>
      cases failed
      exact blames_of_valueOf bad (by simp)
    split at failed
    · cases failed
    next joint rest =>
      split at failed
      · split at failed
        · exact blames_of_failAt failed (by simp) rfl
        next second rest =>
          split at failed
          next failure bad =>
            cases failed
            exact blames_of_valueOf bad (by simp)
          · cases failed
      · split at failed <;> cases failed

private theorem blames_of_tests {pieces : List Piece} (filled : pieces ≠ [])
    (failed : tests site pieces = .error (.diagnosed diagnostic)) : Blames site pieces diagnostic := by
  fun_induction tests site pieces with
  | case1 pieces failure stopped =>
    cases failed
    exact blames_of_test filled stopped
  | case2 => cases failed
  | case3 pieces left joint rest taken =>
    obtain ⟨front, same, _⟩ := isTest_of_test taken
    exact blames_of_failAt failed (by simp [same]) rfl
  | case4 pieces left joint rest taken =>
    obtain ⟨front, same, _⟩ := isTest_of_test taken
    exact blames_of_failAt failed (by simp [same]) rfl
  | case5 pieces left joint rest taken operator joins more ih =>
    obtain ⟨front, same, _⟩ := isTest_of_test taken
    rcases bind_error_iff.mp failed with failed | ⟨_, _, done⟩
    · refine (ih ?_ failed).mono ?_
      · simpa using more
      · intro piece member
        simp [same, member]
    · cases done

theorem tests_reads_all {pieces rest : List Piece} {node : Node} (done : tests site pieces = .ok (node, rest)) :
    rest = [] := by
  fun_induction tests site pieces generalizing node rest with
  | case1 => cases done
  | case2 =>
    cases done
    rfl
  | case3 => cases done
  | case4 => cases done
  | case5 pieces left joint others taken operator joins more ih =>
    obtain ⟨⟨right, behind⟩, read, done⟩ := bind_ok_iff.mp done
    cases done
    exact ih read

/-- A condition that has pieces is refused over one of them. -/
theorem blames_of_ofPieces {pieces : List Piece} (filled : pieces ≠ [])
    (failed : ofPieces site pieces = .error (.diagnosed diagnostic)) : Blames site pieces diagnostic := by
  rw [ofPieces, if_neg (by simpa using filled)] at failed
  rcases bind_error_iff.mp failed with failed | ⟨⟨node, rest⟩, read, failed⟩
  · exact blames_of_tests filled failed
  · cases tests_reads_all read
    cases failed

end Condition

def placeAt (text : String) (offset : Nat) : Position :=
  let before := text.toList.take offset
  ⟨1 + before.count '\n', (before.reverse.takeWhile (· ≠ '\n')).length⟩

section
open Token

/-- A token of the source starts so many characters into its text. -/
structure Starts (source text : String) (offset : Nat) (token : Token) : Prop where
  among : token ∈ (tokensFrom (.ofSource source text)).1
  read : ∃ after, read? (.into source text offset) = .ok (some token) after

def StartsControl (source text : String) (offset : Nat) (keyword : Keyword) : Prop :=
  ∃ token, Starts source text offset token ∧ token.form.keyword? = some keyword ∧
    OpensWith controlOpen Expression.isIdentifierChar keyword.text (text.toList.drop offset)

def StartsInclusion (source text : String) (offset : Nat) (name : String) : Prop :=
  ∃ token, Starts source text offset token ∧ token.form = .inclusion name ∧
    OpensWith inclusionOpen (fun c => !isNameEnd c) name (text.toList.drop offset)

/-- A piece with this value in the condition of an `if` tag starts there. -/
def StartsPiece (source text : String) (offset : Nat) (value : String) : Prop :=
  ∃ token pieces piece, token ∈ (tokensFrom (.ofSource source text)).1 ∧ token.form = .choice pieces ∧ piece ∈ pieces ∧
    piece.value = value ∧ ∃ after, Expression.readPiece (.into source text offset) = .ok piece after

end

/-- What a cause says is to be seen so many characters into the text of a source. -/
def Tells (source text : String) (offset : Nat) : Cause → Prop
  | .endOfInput _ => offset = text.length
  | .unexpectedCharacter _ found => found.toList = (text.toList.drop offset).take 1
  | .unknownKeyword keyword _ => keyword.toList <+: text.toList.drop offset
  | .unknownOperator _ _ => ∃ first rest, text.toList.drop offset = first :: rest ∧
      Expression.isOperatorStart first = true ∧ rest.head? ≠ some (Expression.partner first)
  | .unterminated construct => ∃ keyword, keyword.text = construct ∧ StartsControl source text offset keyword
  | .unbalanced _ => StartsControl source text offset .otherwise ∨ StartsControl source text offset .close
  | .malformed malformation =>
    (malformation = .empty ∧ ∃ position, Starts source text offset ⟨position, .choice []⟩) ∨
      ∃ value, malformation.word? = some value ∧ StartsPiece source text offset value
  | .unknownPartial name => StartsInclusion source text offset name
  | .recursivePartial chain => ∃ name, chain.getLast? = some name ∧ StartsInclusion source text offset name
  | .stated _ _ => False

/-- The diagnostic names the source and a place in its text where what it says is to be seen. -/
def Diagnostic.PointsInto (diagnostic : Diagnostic) (source text : String) : Prop :=
  diagnostic.source = some source ∧ ∃ offset, offset ≤ text.length ∧ diagnostic.position = some (placeAt text offset) ∧
    Tells source text offset diagnostic.cause

section
variable {source text : String} {offset : Nat}

theorem position_into (source text : String) (offset : Nat) :
    (Cursor.into source text offset).position = placeAt text offset := by
  obtain ⟨line, column⟩ := Cursor.placed_iff.mp ((Cursor.placed_ofSource source text).forwardBy offset)
  have before : (Cursor.into source text offset).before = (text.toList.take offset).reverse := by
    simp [Cursor.ofSource]
  rw [before] at line column
  rw [Cursor.position, line, column, List.count_reverse]
  rfl

example : placeAt "a\nbc" 3 = ⟨2, 1⟩ := by cbv

theorem rest_into (source text : String) (offset : Nat) :
    (Cursor.into source text offset).rest = text.toList.drop offset := Cursor.rest_forwardBy _ _

private theorem offset_of_ahead {there : Cursor} (ahead : (Cursor.ofSource source text).Ahead there) :
    ∃ offset, offset ≤ text.length ∧ there = .into source text offset := by
  obtain ⟨offset, inside, same⟩ := ahead
  exact ⟨offset, String.length_toList ▸ inside, same⟩

theorem pointsInto_of_fault {problem : Diagnostic} (fault : (tokensFrom (.ofSource source text)).2.1 = some problem) :
    problem.PointsInto source text := by
  obtain ⟨there, ahead, place, named, shows⟩ := fault_of_tokensFrom fault
  obtain ⟨offset, inside, rfl⟩ := offset_of_ahead ahead
  rw [position_into] at place
  rw [rest_into] at shows
  refine ⟨by rw [named, Cursor.source_forwardBy]; rfl, offset, inside, place, ?_⟩
  cases said : problem.cause <;> rw [said] at shows
  case endOfInput =>
    have long := List.drop_eq_nil_iff.mp shows
    rw [String.length_toList] at long
    exact Nat.le_antisymm inside long
  case unexpectedCharacter => exact shows
  case unknownKeyword => exact shows
  case unknownOperator => exact shows
  all_goals exact shows.elim

/-- Every token starts somewhere, and its position is that place. -/
theorem starts_of_mem {token : Token} (member : token ∈ (tokensFrom (.ofSource source text)).1) :
    ∃ offset, offset ≤ text.length ∧ token.position = some (placeAt text offset) ∧ Starts source text offset token := by
  obtain ⟨there, after, ahead, read⟩ := read_of_mem_tokensFrom member
  obtain ⟨offset, inside, rfl⟩ := offset_of_ahead ahead
  obtain ⟨_, form, rfl, _⟩ := Token.read_some read
  exact ⟨offset, inside, congrArg some (position_into ..), member, after, read⟩

theorem Starts.control {token : Token} {keyword : Token.Keyword} (starts : Starts source text offset token)
    (tag : token.form.keyword? = some keyword) : StartsControl source text offset keyword := by
  obtain ⟨after, read⟩ := starts.read
  obtain ⟨_, form, rfl, formed⟩ := Token.read_some read
  obtain ⟨_, _, _, spelled⟩ := Token.control_of_readForm formed tag
  exact ⟨_, starts, tag, rest_into source text offset ▸ spelled⟩

theorem Starts.inclusion {position : Option Position} {name : String}
    (starts : Starts source text offset ⟨position, .inclusion name⟩) : StartsInclusion source text offset name := by
  obtain ⟨after, read⟩ := starts.read
  obtain ⟨_, form, same, formed⟩ := Token.read_some read
  cases same
  exact ⟨_, starts, rfl, rest_into source text offset ▸ Token.inclusion_of_readForm formed⟩

theorem Starts.piece {position : Option Position} {pieces : List Expression.Piece} {piece : Expression.Piece}
    (starts : Starts source text offset ⟨position, .choice pieces⟩) (member : piece ∈ pieces) :
    ∃ further, further ≤ text.length ∧ piece.position = some (placeAt text further) ∧
      StartsPiece source text further piece.value := by
  obtain ⟨after, read⟩ := starts.read
  obtain ⟨more, form, same, formed⟩ := Token.read_some read
  cases same
  obtain ⟨inner, between, done, _⟩ := Token.control_of_readForm formed rfl
  obtain ⟨_, _, all, done⟩ := Scan.bind_eq_ok done
  cases done
  obtain ⟨there, behind, ahead, taken⟩ := Expression.pieces_of_readAll all member
  have here : (Cursor.ofSource source text).Ahead (.into source text offset) := by
    rw [rest_into, ne_eq, List.drop_eq_nil_iff, Nat.not_le] at more
    exact ⟨offset, Nat.le_of_lt more, rfl⟩
  obtain ⟨further, inside, rfl⟩ := offset_of_ahead ((here.trans between).trans ahead)
  refine ⟨further, inside, ?_, _, pieces, piece, starts.among, rfl, member, rfl, behind, taken⟩
  rw [Expression.place_of_readPiece taken, position_into]

end

def Draft.OpenedBy (tokens : List Token) (draft : Draft) : Prop :=
  ∀ enclosure ∈ draft.enclosures, ∃ token ∈ tokens, enclosure.position = token.position ∧
    ∃ keyword, token.form.keyword? = some keyword ∧ keyword.text = enclosure.opening.keyword

namespace Draft.OpenedBy
variable {inclusion : Inclusion} {source : String} {tokens : List Token} {draft next : Draft}

theorem takes {token : Token} (opened : draft.OpenedBy tokens) (taken : Takes inclusion source draft token next)
    (member : token ∈ tokens) : next.OpenedBy tokens := by
  cases taken with
  | text position content => exact opened
  | «variable» position path => exact opened
  | inclusion included => exact opened
  | loop position iterable binding =>
    exact List.forall_mem_cons.mpr ⟨⟨_, member, rfl, .loop, rfl, rfl⟩, opened⟩
  | choice sound => exact List.forall_mem_cons.mpr ⟨⟨_, member, rfl, .choice, rfl, rfl⟩, opened⟩
  | otherwise nodes siblings condition start position outer =>
    obtain ⟨first, around⟩ := List.forall_mem_cons.mp opened
    exact List.forall_mem_cons.mpr ⟨first, around⟩
  | close nodes siblings opening start position outer => exact (List.forall_mem_cons.mp opened).2

theorem acceptAll {taken : List Token} (opened : draft.OpenedBy tokens) (within : ∀ token ∈ taken, token ∈ tokens)
    (done : draft.acceptAll inclusion source taken = .ok next) : next.OpenedBy tokens := by
  induction taken generalizing draft with
  | nil =>
    cases done
    exact opened
  | cons token taken ih =>
    obtain ⟨between, first, rest⟩ := acceptAll_cons_ok.mp done
    obtain ⟨member, within⟩ := List.forall_mem_cons.mp within
    exact ih (opened.takes first member) within rest

end Draft.OpenedBy

section
variable {registry : Registry} {chain : List String} {source text : String} {diagnostic : Diagnostic}

private theorem pointsInto_of_conclude {draft : Draft}
    (taken : Draft.empty.acceptAll (expand registry chain) source (tokensFrom (.ofSource source text)).1 = .ok draft)
    (failed : Draft.conclude source (tokensFrom (.ofSource source text)).2.1 draft = .error (.diagnosed diagnostic)) :
    diagnostic.PointsInto source text := by
  cases fault : (tokensFrom (.ofSource source text)).2.1 with
  | some problem =>
    rw [fault] at failed
    cases failed
    exact pointsInto_of_fault fault
  | none =>
    rw [fault] at failed
    have opened : draft.OpenedBy (tokensFrom (.ofSource source text)).1 := by
      have nothing : Draft.empty.OpenedBy (tokensFrom (.ofSource source text)).1 := by simp [Draft.OpenedBy, Draft.empty]
      exact nothing.acceptAll (fun _ member => member) taken
    obtain ⟨nodes, _ | ⟨enclosure, outer⟩⟩ := draft
    · cases failed
    · cases failed
      obtain ⟨token, member, same, keyword, tag, spelled⟩ := opened enclosure List.mem_cons_self
      obtain ⟨offset, inside, place, starts⟩ := starts_of_mem member
      exact ⟨rfl, offset, inside, same.trans place, keyword, spelled, starts.control tag⟩

private theorem pointsInto_of_ofPieces {offset : Nat} {position : Option Position} {pieces : List Expression.Piece}
    (inside : offset ≤ text.length) (place : position = some (placeAt text offset))
    (starts : Starts source text offset ⟨position, .choice pieces⟩)
    (broken : Condition.ofPieces ⟨position, source⟩ pieces = .error (.diagnosed diagnostic)) :
    diagnostic.PointsInto source text := by
  by_cases filled : pieces = []
  · subst filled
    cases broken
    exact ⟨rfl, offset, inside, place, .inl ⟨rfl, position, starts⟩⟩
  · obtain ⟨piece, within, malformation, told, rfl⟩ := Condition.blames_of_ofPieces filled broken
    obtain ⟨further, inside, place, starts⟩ := starts.piece within
    exact ⟨rfl, further, inside, place, .inr ⟨_, told, starts⟩⟩

/-- Where a source is refused with a diagnostic, that points into the source or into a partial. -/
theorem pointsInto_of_parse
    (failed : (parse registry chain source (Lexer.ofSource source text)).1.result = .error (.diagnosed diagnostic)) :
    ∃ name content, ((name = source ∧ content = text) ∨ registry.find? name = some content) ∧
      diagnostic.PointsInto name content := by
  induction chain using registry.chain_induction generalizing source text with
  | step chain ih =>
    rcases parse_error.mp failed with ⟨before, token, after, draft, split, taken, refused⟩ | ⟨draft, taken, ended⟩
    · have member : token ∈ (tokensFrom (.ofSource source text)).1 := by
        rw [show (tokensFrom _).1 = _ from split]
        simp
      obtain ⟨offset, inside, place, starts⟩ := starts_of_mem member
      cases Draft.refuses_of_accept refused with
      | misplaced tag imbalance =>
        refine ⟨source, text, .inl ⟨rfl, rfl⟩, rfl, offset, inside, place, ?_⟩
        rcases tag with tag | tag
        · exact .inl (starts.control (by rw [tag]; rfl))
        · exact .inr (starts.control (by rw [tag]; rfl))
      | choice broken =>
        exact ⟨source, text, .inl ⟨rfl, rfl⟩, pointsInto_of_ofPieces inside place starts broken⟩
      | @inclusion position name _ failed =>
        rcases expand_error_iff.mp failed with ⟨-, same⟩ | ⟨inner, registered, ⟨-, same⟩ | ⟨fresh, failed⟩⟩
        · cases same
          exact ⟨source, text, .inl ⟨rfl, rfl⟩, rfl, offset, inside, place, starts.inclusion⟩
        · cases same
          exact ⟨source, text, .inl ⟨rfl, rfl⟩, rfl, offset, inside, place, name, by simp, starts.inclusion⟩
        · obtain ⟨found, content, known, points⟩ := ih name inner registered fresh failed
          refine ⟨found, content, .inr ?_, points⟩
          rcases known with ⟨rfl, rfl⟩ | known
          · exact registered
          · exact known
    · exact ⟨source, text, .inl ⟨rfl, rfl⟩, pointsInto_of_conclude taken ended⟩

end

namespace Template

/-- Whatever a compilation is diagnosed with points into the source or into a registered partial. -/
theorem compile_pointsInto {content : String} {partials : Registry} {globals : Value} {diagnostic : Diagnostic}
    (failed : (compile content partials globals).result = .error (.diagnosed diagnostic)) :
    ∃ name text, ((name = rootName ∧ text = content) ∨ partials.find? name = some text) ∧
      diagnostic.PointsInto name text := pointsInto_of_parse (compile_error_iff.mp failed)

def cover : String := "a\n\x7b> c\x7d"

def letter : String := "b\n\x7b% end %\x7d"

private theorem cover_read :
    Token.read? (.into rootName cover 0) = .ok (some ⟨some ⟨1, 0⟩, .text "a\n"⟩) (.into rootName cover 2) ∧
      Token.read? (.into rootName cover 2) = .ok (some ⟨some ⟨2, 0⟩, .inclusion "c"⟩) (.into rootName cover 7) := by
  refine ⟨?_, ?_⟩ <;> cbv

private theorem letter_read :
    Token.read? (.into "c" letter 0) = .ok (some ⟨some ⟨1, 0⟩, .text "b\n"⟩) (.into "c" letter 2) ∧
      Token.read? (.into "c" letter 2) = .ok (some ⟨some ⟨2, 0⟩, .close⟩) (.into "c" letter 11) := by
  refine ⟨?_, ?_⟩ <;> cbv

private theorem letter_refused (chain : List String) :
    (parse ⟨[("c", letter)]⟩ chain "c" (Lexer.ofSource "c" letter)).1.result =
      .error (.diagnosed ⟨.unbalanced (.outside "end"), some ⟨2, 0⟩, some "c"⟩) := by
  obtain ⟨text, close⟩ := letter_read
  obtain ⟨rest, tokens⟩ : ∃ rest, (tokensFrom (.into "c" letter 0)).1 =
      [⟨some ⟨1, 0⟩, .text "b\n"⟩] ++ ⟨some ⟨2, 0⟩, .close⟩ :: rest :=
    ⟨_, by rw [tokensFrom_token text, tokensFrom_token close]; rfl⟩
  exact parse_error.mpr (.inl ⟨_, _, _, _, tokens, rfl, rfl⟩)

/-- The tag is one too many where it stands, in the partial. -/
theorem compile_pointsInto_letter :
    (compile cover ⟨[("c", letter)]⟩ (.dict [])).result =
        .error (.diagnosed ⟨.unbalanced (.outside "end"), some ⟨2, 0⟩, some "c"⟩) ∧
      ∃ name text, ((name = rootName ∧ text = cover) ∨ Registry.find? ⟨[("c", letter)]⟩ name = some text) ∧
        Diagnostic.PointsInto ⟨.unbalanced (.outside "end"), some ⟨2, 0⟩, some "c"⟩ name text := by
  obtain ⟨text, inclusion⟩ := cover_read
  obtain ⟨rest, tokens⟩ : ∃ rest, (tokensFrom (.into rootName cover 0)).1 =
      [⟨some ⟨1, 0⟩, .text "a\n"⟩] ++ ⟨some ⟨2, 0⟩, .inclusion "c"⟩ :: rest :=
    ⟨_, by rw [tokensFrom_token text, tokensFrom_token inclusion]; rfl⟩
  have failed : (compile cover ⟨[("c", letter)]⟩ (.dict [])).result =
      .error (.diagnosed ⟨.unbalanced (.outside "end"), some ⟨2, 0⟩, some "c"⟩) := by
    refine compile_error_iff.mpr (parse_error.mpr (.inl ⟨_, _, _, _, tokens, rfl, ?_⟩))
    have registered : Registry.find? ⟨[("c", letter)]⟩ "c" = some letter := rfl
    simp only [Draft.accept, Compilation.result_bind, result_expand, registered, List.not_mem_nil, if_false, letter_refused]
    rfl
  exact ⟨failed, compile_pointsInto failed⟩

end Template
end Stencil
