import Stencil.Proofs.ReadingLocality
import Stencil.Proofs.SourceTokens

/-! The tokens of two sources in one. Those of the first come before those of the second, which lie further on by the
extent of the first; text that ends the first source and text that begins the second make one token. Only a brace at
the seam can make a tag of what was none. -/

namespace Stencil
open Scan

/-- A brace before the seam and a character behind it that together open a tag. -/
def OpensAcross (first second : List Char) : Prop :=
  first.getLast? = some '{' ∧ (second.head? = some '{' ∨ second.head? = some '%' ∨ second.head? = some '>')

/-- The tokens of two sources side by side, where texts that meet are one. -/
inductive Joins : List Token → List Token → List Token → Prop
  | beside (first second : List Token) : Joins first second (first ++ second)
  | merged (front back : List Token) (place place' : Option Position) (before after : String) :
      Joins (front ++ [⟨place, .text before⟩]) (⟨place', .text after⟩ :: back)
        (front ++ ⟨place, .text (before ++ after)⟩ :: back)

theorem Joins.cons {first second whole : List Token} (token : Token) (joins : Joins first second whole) :
    Joins (token :: first) second (token :: whole) := by
  cases joins with
  | beside => exact .beside (token :: first) second
  | merged front back place place' before after => exact .merged (token :: front) back place place' before after

namespace Token

@[simp] theorem shift_nothing (token : Token) : token.shift .nothing = token := by
  obtain ⟨position, form⟩ := token
  have place (position : Option Position) : position.map Extent.nothing.shift = position := by cases position <;> simp
  have piece : Expression.Piece.shift .nothing = id := funext fun piece => by simp [Expression.Piece.shift, place]
  cases form <;> simp [shift, Form.shift, place, piece]

theorem plainText_ne_nil_iff {chars : List Char} : plainText chars ≠ [] ↔ chars ≠ [] ∧ opensTag chars = false := by
  cases chars with
  | nil => simp [plainText]
  | cons c rest => cases opens : opensTag (c :: rest) <;> simp [plainText, opens]

theorem opensTag_append (chars : List Char) (long : 2 ≤ chars.length) (tail : List Char) :
    opensTag (chars ++ tail) = opensTag chars := by
  rcases chars with _ | ⟨c, _ | ⟨d, rest⟩⟩
  · simp at long
  · simp at long
  · simp only [List.cons_append, opensTag_eq, variableOpen, controlOpen, inclusionOpen, List.isPrefixOf]

theorem opensTag_append_of_opens {chars : List Char} (opens : opensTag chars = true) (tail : List Char) :
    opensTag (chars ++ tail) = true := by
  have long : 2 ≤ chars.length := by
    rcases chars with _ | ⟨c, _ | ⟨d, rest⟩⟩
    · cases opens
    · simp [opensTag] at opens
    · simp
  rw [opensTag_append chars long, opens]

theorem plainText_isPrefix (chars : List Char) : plainText chars <+: chars := by
  induction chars with
  | nil => exact List.nil_prefix
  | cons c rest ih =>
    rw [plainText]
    split
    · exact List.nil_prefix
    · exact (List.prefix_cons_inj c).mpr ih

theorem plainText_append {chars : List Char} (stops : plainText chars ≠ chars) (tail : List Char) :
    plainText (chars ++ tail) = plainText chars := by
  induction chars with
  | nil => exact absurd rfl stops
  | cons c rest ih =>
    cases rest with
    | nil => exact absurd (by simp [plainText, opensTag]) stops
    | cons d rest =>
      have same := opensTag_append (c :: d :: rest) (by simp) tail
      rw [List.cons_append, plainText, plainText, ← List.cons_append, same]
      split
      · rfl
      next goes =>
        rw [ih fun whole => stops (by rw [plainText, if_neg goes, whole])]

theorem plainText_append_of_plain {chars tail : List Char} (plain : plainText chars = chars)
    (apart : ¬ OpensAcross chars tail) : plainText (chars ++ tail) = chars ++ plainText tail := by
  induction chars with
  | nil => rfl
  | cons c rest ih =>
    have goes : opensTag (c :: rest) = false := by
      by_contra opens
      rw [Bool.not_eq_false] at opens
      simp [plainText, opens] at plain
    have later : plainText rest = rest := by simpa [plainText, goes] using plain
    have goes' : opensTag (c :: (rest ++ tail)) = false := by
      cases rest with
      | cons d rest =>
        have same := opensTag_append (c :: d :: rest) (by simp) tail
        exact same.trans goes
      | nil =>
        cases tail with
        | nil => exact goes
        | cons d tail =>
          by_contra opens
          apply apart
          rw [Bool.not_eq_false] at opens
          unfold opensTag at opens
          split at opens <;> simp_all [OpensAcross]
    have inner : ¬ OpensAcross rest tail := by
      cases rest with
      | nil => simp [OpensAcross]
      | cons d rest => simpa [OpensAcross] using apart
    rw [List.cons_append, plainText, goes', ih later inner]
    rfl

theorem read_end {cursor : Cursor} (ended : cursor.rest = []) : read? cursor = .ok none cursor := by
  rw [read?, get_bind]
  simp only [Cursor.atEnd, ended, List.isEmpty_nil, if_true]
  rfl

theorem read_form {cursor after : Cursor} {form : Form} (more : cursor.rest ≠ [])
    (read : readForm cursor = .ok form after) : read? cursor = .ok (some ⟨some cursor.position, form⟩) after := by
  have atEnd : cursor.atEnd = false := by simpa [Cursor.atEnd] using more
  rw [read?, get_bind]
  simp only [atEnd, Bool.false_eq_true, if_false]
  rw [bind_ok read]
  rfl

theorem readForm_text {cursor : Cursor} (plain : opensTag cursor.rest = false) : readForm cursor =
    .ok (.text (String.ofList (plainText cursor.rest))) (cursor.forwardBy (plainText cursor.rest).length) := by
  rw [opensTag_eq, Bool.or_eq_false_iff, Bool.or_eq_false_iff] at plain
  obtain ⟨⟨noVariable, noControl⟩, noInclusion⟩ := plain
  rw [readForm, get_bind]
  simp only [Cursor.startsWith, noVariable, noControl, noInclusion, Bool.false_eq_true, if_false]
  rfl

theorem read_some {cursor after : Cursor} {token : Token} (read : read? cursor = .ok (some token) after) :
    cursor.rest ≠ [] ∧ ∃ form, token = ⟨some cursor.position, form⟩ ∧ readForm cursor = .ok form after := by
  rw [read?, get_bind] at read
  by_cases ended : cursor.rest = []
  · simp only [Cursor.atEnd, ended, List.isEmpty_nil, if_true] at read
    cases read
  · have atEnd : cursor.atEnd = false := by simpa [Cursor.atEnd] using ended
    simp only [atEnd, Bool.false_eq_true, if_false] at read
    obtain ⟨form, middle, taken, read⟩ := bind_eq_ok read
    cases read
    exact ⟨ended, form, rfl, taken⟩

theorem read_none {cursor after : Cursor} (read : read? cursor = .ok none after) : cursor.rest = [] := by
  rw [read?, get_bind] at read
  by_contra more
  have atEnd : cursor.atEnd = false := by simpa [Cursor.atEnd] using more
  simp only [atEnd, Bool.false_eq_true, if_false] at read
  obtain ⟨form, middle, taken, read⟩ := bind_eq_ok read
  cases read

/-- A form is read the same way further on, unless it is a text that could go on behind the source. -/
theorem readForm_beyond {cursor there after : Cursor} {extent : Extent} {tail : List Char} {form : Form}
    (beyond : Cursor.Beyond extent tail cursor there) (more : cursor.rest ≠ [])
    (bounded : tail = [] ∨ plainText cursor.rest ≠ cursor.rest) (taken : readForm cursor = .ok form after) :
    ∃ count ≤ cursor.rest.length, after = cursor.forwardBy count ∧
      readForm there = .ok (form.shift extent) (there.forwardBy count) := by
  cases opens : opensTag cursor.rest with
  | true =>
    obtain ⟨count, inside, moved, like⟩ := readForm_tag opens taken
    exact ⟨count, inside, moved, like extent tail there beyond⟩
  | false =>
    have text : plainText there.rest = plainText cursor.rest := by
      rw [beyond.ahead]
      rcases bounded with rfl | stops
      · rw [List.append_nil]
      · exact plainText_append stops tail
    have goes := (plainText_ne_nil_iff.mp (text ▸ plainText_ne_nil_iff.mpr ⟨more, opens⟩)).2
    rw [readForm_text opens] at taken
    cases taken
    refine ⟨_, (plainText_isPrefix _).length_le, rfl, ?_⟩
    rw [readForm_text goes, text]
    rfl

end Token

variable {cursor there start : Cursor} {extent : Extent} {tail : List Char}

/-- A source that is read to its end is read the same way behind another text. -/
theorem tokensFrom_beyond (beyond : Cursor.Beyond extent [] cursor there) (sound : (tokensFrom cursor).2.1 = none) :
    (tokensFrom there).1 = (tokensFrom cursor).1.map (Token.shift extent) ∧ (tokensFrom there).2.1 = none := by
  induction cursor using tokensFrom_induction generalizing there with
  | fault cursor problem after failed => simp [tokensFrom_fault failed] at sound
  | done cursor after ended =>
    have atEnd : there.rest = [] := by rw [beyond.ahead, Token.read_none ended]; rfl
    simp [tokensFrom_done ended, tokensFrom_done (Token.read_end atEnd)]
  | token cursor token after read ih =>
    obtain ⟨more, form, rfl, taken⟩ := Token.read_some read
    obtain ⟨count, inside, rfl, again⟩ := Token.readForm_beyond beyond more (.inl rfl) taken
    have read' := Token.read_form (show there.rest ≠ [] by simp [beyond.ahead, more]) again
    rw [tokensFrom_token read] at sound ⊢
    obtain ⟨tokens, fault⟩ := ih (beyond.forwardBy inside) sound
    rw [tokensFrom_token read', tokens, List.map_cons]
    exact ⟨by rw [Token.shift, Option.map_some, ← beyond.place], fault⟩

private theorem tokensFrom_text (plain : Token.plainText cursor.rest ≠ []) : tokensFrom cursor =
    (⟨some cursor.position, .text (String.ofList (Token.plainText cursor.rest))⟩ ::
      (tokensFrom (cursor.forwardBy (Token.plainText cursor.rest).length)).1,
      (tokensFrom (cursor.forwardBy (Token.plainText cursor.rest).length)).2) := by
  obtain ⟨more, goes⟩ := Token.plainText_ne_nil_iff.mp plain
  exact tokensFrom_token (Token.read_form more (Token.readForm_text goes))

private theorem apart_drop {first second : List Char} (apart : ¬ OpensAcross first second) (count : Nat) :
    ¬ OpensAcross (first.drop count) second := by
  intro ⟨last, opens⟩
  rw [List.getLast?_drop] at last
  split at last
  · cases last
  · exact apart ⟨last, opens⟩

/-- The text at the end of the first source takes in the text at the start of the second. -/
private theorem tokensFrom_last (beyond : Cursor.Beyond .nothing tail cursor there)
    (seam : Cursor.Beyond extent [] start (there.forwardBy cursor.rest.length)) (apart : ¬ OpensAcross cursor.rest tail)
    (more : cursor.rest ≠ []) (plain : Token.plainText cursor.rest = cursor.rest) (sound : (tokensFrom start).2.1 = none) :
    Joins (tokensFrom cursor).1 ((tokensFrom start).1.map (Token.shift extent)) (tokensFrom there).1 ∧
      (tokensFrom there).2.1 = none := by
  have behind : start.rest = tail := by
    have ahead := seam.ahead
    rw [Cursor.rest_forwardBy, beyond.ahead, List.drop_left, List.append_nil] at ahead
    exact ahead.symm
  have alone : (tokensFrom cursor).1 = [⟨some cursor.position, .text (String.ofList cursor.rest)⟩] := by
    have atEnd : (cursor.forwardBy cursor.rest.length).rest = [] := by simp
    rw [tokensFrom_text (by rwa [plain]), plain, tokensFrom_done (Token.read_end atEnd)]
  have long := Token.plainText_append_of_plain plain apart
  rw [← beyond.ahead] at long
  have place : there.position = cursor.position := by rw [beyond.place, Extent.shift_nothing]
  have whole := tokensFrom_text (show Token.plainText there.rest ≠ [] by simp [long, more])
  rw [long, List.length_append, Cursor.forwardBy_add, place] at whole
  rw [alone, whole]
  by_cases tagged : Token.plainText tail = []
  · obtain ⟨tokens, fault⟩ := tokensFrom_beyond seam sound
    rw [tagged, List.length_nil, List.append_nil]
    exact ⟨by rw [← tokens]; exact .beside [_] _, fault⟩
  · rw [← behind] at tagged ⊢
    have text := tokensFrom_text tagged
    rw [text] at sound
    obtain ⟨tokens, fault⟩ := tokensFrom_beyond (seam.forwardBy (Token.plainText_isPrefix start.rest).length_le) sound
    rw [text, List.map_cons, String.ofList_append]
    exact ⟨by rw [← tokens]; exact .merged [] _ _ _ _ _, fault⟩

/-- Two sources that are read to their ends are read to the end as one. -/
theorem tokensFrom_seam (beyond : Cursor.Beyond .nothing tail cursor there)
    (seam : Cursor.Beyond extent [] start (there.forwardBy cursor.rest.length)) (apart : ¬ OpensAcross cursor.rest tail)
    (sound : (tokensFrom cursor).2.1 = none) (sound' : (tokensFrom start).2.1 = none) :
    Joins (tokensFrom cursor).1 ((tokensFrom start).1.map (Token.shift extent)) (tokensFrom there).1 ∧
      (tokensFrom there).2.1 = none := by
  induction cursor using tokensFrom_induction generalizing there with
  | fault cursor problem after failed => simp [tokensFrom_fault failed] at sound
  | done cursor after ended =>
    have atEnd := Token.read_none ended
    rw [atEnd, List.length_nil] at seam
    change Cursor.Beyond extent [] start there at seam
    obtain ⟨tokens, fault⟩ := tokensFrom_beyond seam sound'
    rw [tokensFrom_done ended, tokens]
    exact ⟨.beside [] _, fault⟩
  | token cursor token after read ih =>
    obtain ⟨more, form, rfl, taken⟩ := Token.read_some read
    by_cases plain : Token.plainText cursor.rest = cursor.rest
    · exact tokensFrom_last beyond seam apart more plain sound'
    obtain ⟨count, inside, rfl, again⟩ := Token.readForm_beyond beyond more (.inr plain) taken
    have read' := Token.read_form (show there.rest ≠ [] by simp [beyond.ahead, more]) again
    have unmoved : form.shift .nothing = form := congrArg Token.form (Token.shift_nothing ⟨none, form⟩)
    have place : there.position = cursor.position := by rw [beyond.place, Extent.shift_nothing]
    have same : (there.forwardBy count).forwardBy (cursor.forwardBy count).rest.length =
        there.forwardBy cursor.rest.length := by
      rw [← Cursor.forwardBy_add, Cursor.rest_forwardBy, List.length_drop, Nat.add_sub_cancel' inside]
    rw [tokensFrom_token read] at sound ⊢
    obtain ⟨joins, fault⟩ := ih (beyond.forwardBy inside) (same ▸ seam) (by simpa using apart_drop apart count) sound
    rw [tokensFrom_token read', place, unmoved]
    exact ⟨joins.cons _, fault⟩

theorem tokensFrom_append {source first second : String} (apart : ¬ OpensAcross first.toList second.toList)
    (sound : (tokensFrom (.ofSource source first)).2.1 = none) (sound' : (tokensFrom (.ofSource source second)).2.1 = none) :
    Joins (tokensFrom (.ofSource source first)).1
        ((tokensFrom (.ofSource source second)).1.map (Token.shift (.of first.toList)))
        (tokensFrom (.ofSource source (first ++ second))).1 ∧
      (tokensFrom (.ofSource source (first ++ second))).2.1 = none := by
  have beyond : Cursor.Beyond .nothing second.toList (.ofSource source first) (.ofSource source (first ++ second)) :=
    ⟨String.toList_append, Nat.le_refl 1, (Extent.shift_nothing _).symm⟩
  have seam : Cursor.Beyond (.of first.toList) [] (.ofSource source second)
      (Cursor.forwardBy first.toList.length (.ofSource source (first ++ second))) := by
    refine Cursor.beyond_of_read ((Cursor.placed_ofSource _ _).forwardBy _) ?_ ?_
    · simp [Cursor.ofSource, String.toList_append]
    · simp [Cursor.ofSource, String.toList_append]
  exact tokensFrom_seam beyond seam apart sound sound'

end Stencil
