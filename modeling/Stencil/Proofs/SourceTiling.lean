import Stencil.Proofs.DiagnosticPlaces
import Stencil.Proofs.EvaluationReach
import Stencil.Proofs.TagGrammar

/-! How tokens cover their source. Those that are delivered stand one right behind the other, and each tells where it begins.
A text is what stands there, up to the next place where a tag opens, and the pieces of a condition stand in its tag in their
order. -/

namespace Stencil
open Scan

namespace Expression
variable {touching : Option Kind → Kind → Prop} {place : Position} {pieces : List Piece} {text : List Char}

/-- The value of the piece stands where the text begins, behind a quote if it is a string. -/
def Piece.Heads (piece : Piece) (text : List Char) : Prop :=
  match piece.kind with
  | .string => ∃ quote, isQuote quote = true ∧ quote :: piece.value.toList ++ [quote] <+: text
  | _ => piece.value.toList <+: text

theorem Spelled.heads {kind : Kind} {value : String} (spelled : Spelled kind value text) (position : Option Position)
    (rest : List Char) : Piece.Heads ⟨kind, value, position⟩ (text ++ rest) := by
  cases spelled with
  | string mark free => exact ⟨_, mark, by simp⟩
  | _ => simp [Piece.Heads]

/-- The piece stands so many characters into a text that begins at the place. -/
structure Stands (place : Position) (text : List Char) (piece : Piece) (offset : Nat) : Prop where
  inside : offset < text.length
  placed : piece.position = some (place.past (text.take offset))
  heads : piece.Heads (text.drop offset)

theorem stands_behind {front : List Char} {offsets : List Nat}
    (each : List.Forall₂ (Stands (place.past front) text) pieces offsets) :
    List.Forall₂ (Stands place (front ++ text)) pieces (offsets.map (front.length + ·)) := by
  rw [List.forall₂_map_right_iff]
  refine each.imp ?_
  intro piece offset ⟨inside, placed, heads⟩
  refine ⟨by simpa using inside, ?_, ?_⟩
  · rw [placed, List.take_length_add_append, Position.past_append]
  · rwa [List.drop_length_add_append]

theorem SpelledAll.stands (spelled : SpelledAll touching place pieces text) :
    ∃ offsets, List.Forall₂ (Stands place text) pieces offsets ∧ offsets.Pairwise (· < ·) := by
  induction spelled with
  | close blank => exact ⟨[], .nil, .nil⟩
  | @piece place gap text more piece pieces blank placed spelled parted others ih =>
    obtain ⟨offsets, each, ascend⟩ := ih
    obtain ⟨c, rest, opening, _⟩ := spelled.begins
    have filled : 0 < text.length := by simp [opening]
    refine ⟨gap.length :: offsets.map ((gap ++ text).length + ·), .cons ⟨?_, ?_, ?_⟩ (stands_behind each), ?_⟩
    · simp only [List.length_append]
      omega
    · rw [List.append_assoc, List.take_left, placed]
    · rw [List.append_assoc, List.drop_left]
      exact spelled.heads piece.position more
    · refine List.pairwise_cons.mpr ⟨?_, ?_⟩
      · intro behind member
        obtain ⟨offset, _, rfl⟩ := List.mem_map.mp member
        simp only [List.length_append]
        omega
      · exact ascend.map _ fun _ _ before => Nat.add_lt_add_left before _

end Expression

namespace Token
open Expression (Piece Stands)

def openers : List (List Char) := [variableOpen, controlOpen, inclusionOpen]

theorem opensTag_iff {chars : List Char} : opensTag chars = true ↔ ∃ opener ∈ openers, opener <+: chars := by
  simp [opensTag_eq, openers, or_assoc]

theorem opensTag_inside_plainText {chars : List Char} {i : Nat} (inside : i < (plainText chars).length) :
    opensTag (chars.drop i) = false := by
  induction chars generalizing i with
  | nil => simp [plainText] at inside
  | cons c rest ih =>
    rw [plainText] at inside
    split at inside
    · simp at inside
    next goes =>
      cases i with
      | zero => simpa using goes
      | succ i => exact ih (by simpa using inside)

theorem opensTag_behind_plainText (chars : List Char) : chars.drop (plainText chars).length = [] ∨
    opensTag (chars.drop (plainText chars).length) = true := by
  induction chars with
  | nil => exact .inl rfl
  | cons c rest ih =>
    rw [plainText]
    split
    next opens => exact .inr opens
    next => exact ih

theorem Spelled.stands {touching : Option Expression.Kind → Expression.Kind → Prop} {place : Position} {pieces : List Piece}
    {span : List Char} (spelled : Spelled touching place (.choice pieces) span) :
    ∃ offsets, List.Forall₂ (Stands place span) pieces offsets ∧ offsets.Pairwise (· < ·) := by
  cases spelled with
  | choice blank parted spelled =>
    obtain ⟨offsets, each, ascend⟩ := spelled.stands
    exact ⟨_, Expression.stands_behind each, ascend.map _ fun _ _ before => Nat.add_lt_add_left before _⟩

/-- The token is what stands in a span of the text, so many characters in. -/
structure Covers (text : String) (offset : Nat) (span : List Char) (token : Token) : Prop where
  filled : span ≠ []
  ahead : span <+: text.toList.drop offset
  placed : token.position = some (placeAt text offset)
  verbatim : ∀ content, token.form = .text content → content.toList = span
  plain : ∀ content, token.form = .text content →
    ∀ i < span.length, ∀ opener ∈ openers, ¬ opener <+: text.toList.drop (offset + i)
  /-- A text ends only where the source does or a tag opens. -/
  ends : ∀ content, token.form = .text content → text.toList.drop (offset + span.length) = [] ∨
    ∃ opener ∈ openers, opener <+: text.toList.drop (offset + span.length)
  pieces : ∀ pieces, token.form = .choice pieces → ∃ offsets : List Nat, offsets.Pairwise (· < ·) ∧
    List.Forall₂ (fun piece inner => inner < span.length ∧ piece.position = some (placeAt text (offset + inner)) ∧
      piece.Heads (span.drop inner)) pieces offsets

end Token

section
open Token
variable {source text : String} {offset : Nat} {token : Token} {tokens : List Token} {spans : List (List Char)}

theorem past_placeAt {front : List Char} (ahead : front <+: text.toList.drop offset) :
    (placeAt text offset).past front = placeAt text (offset + front.length) := by
  obtain ⟨rest, same⟩ := ahead
  rw [← position_into rootName, ← position_into rootName, Cursor.into, Cursor.into, Cursor.forwardBy_add]
  exact (Cursor.position_forwardBy (by rw [rest_into, same])).symm

theorem covers_of_read {after : Cursor} (read : read? (.into source text offset) = .ok (some token) after) :
    ∃ span, after = .into source text (offset + span.length) ∧ Covers text offset span token := by
  have shorter := consumes_read read
  obtain ⟨more, form, rfl, formed⟩ := read_some read
  rw [position_into]
  cases opens : opensTag (Cursor.into source text offset).rest with
  | true =>
    obtain ⟨span, ahead, moved, spelled⟩ := (exactlyAt_readForm opens form after).mp formed
    have stands : span <+: text.toList.drop offset := ⟨after.rest, by rw [← ahead, rest_into]⟩
    refine ⟨span, by rw [moved, Cursor.into, Cursor.into, Cursor.forwardBy_add], ?_, stands, rfl, ?_, ?_, ?_, ?_⟩
    · rintro rfl
      rw [moved] at shorter
      exact Nat.lt_irrefl _ shorter
    · rintro _ rfl
      cases spelled
    · rintro _ rfl
      cases spelled
    · rintro _ rfl
      cases spelled
    · rintro pieces rfl
      obtain ⟨offsets, each, ascend⟩ := spelled.stands
      refine ⟨offsets, ascend, each.imp ?_⟩
      intro piece inner ⟨inside, placed, heads⟩
      refine ⟨inside, ?_, heads⟩
      rw [placed, position_into, past_placeAt ((List.take_prefix _ _).trans stands), List.length_take_of_le inside.le]
  | false =>
    rw [readForm_text opens] at formed
    cases formed
    rw [rest_into] at opens more ⊢
    refine ⟨plainText (text.toList.drop offset), ?_, ?_, plainText_isPrefix _, rfl, ?_, ?_, ?_, ?_⟩
    · rw [Cursor.into, Cursor.into, Cursor.forwardBy_add]
    · exact plainText_ne_nil_iff.mpr ⟨more, opens⟩
    · rintro _ ⟨⟩
      simp
    · rintro _ ⟨⟩ i inside opener known starts
      have plain := opensTag_inside_plainText inside
      rw [List.drop_drop, Bool.eq_false_iff] at plain
      exact plain (opensTag_iff.mpr ⟨opener, known, starts⟩)
    · rintro _ ⟨⟩
      have ends := opensTag_behind_plainText (text.toList.drop offset)
      rwa [List.drop_drop, opensTag_iff] at ends
    · rintro _ ⟨⟩

/-- The tokens cover spans that stand in the text one right behind the other. -/
inductive Tiles (text : String) : Nat → List Token → List (List Char) → Prop
  | nothing {offset : Nat} : Tiles text offset [] []
  | token {offset : Nat} {token : Token} {span : List Char} {tokens : List Token} {spans : List (List Char)}
      (covers : Covers text offset span token) (more : Tiles text (offset + span.length) tokens spans) :
      Tiles text offset (token :: tokens) (span :: spans)

theorem Tiles.flatten (tiles : Tiles text offset tokens spans) : spans.flatten <+: text.toList.drop offset := by
  induction tiles with
  | nothing => exact List.nil_prefix
  | token covers more ih =>
    obtain ⟨rest, same⟩ := covers.ahead
    rw [List.flatten_cons, ← same, List.prefix_append_right_inj]
    rwa [← List.drop_drop, ← same, List.drop_left] at ih

theorem Tiles.apart (tiles : Tiles text offset tokens spans) : tokens.IsChain fun first second =>
    ¬ ((∃ content, first.form = .text content) ∧ ∃ content, second.form = .text content) := by
  induction tiles with
  | nothing => exact .nil
  | token covers more ih =>
    cases more with
    | nothing => exact .singleton _
    | token covers' more =>
      refine .cons_cons ?_ ih
      rintro ⟨⟨content, first⟩, content', second⟩
      rcases covers.ends content first with ended | ⟨opener, known, starts⟩
      · exact covers'.filled (List.prefix_nil.mp (ended ▸ covers'.ahead))
      · exact covers'.plain content' second 0 (List.length_pos_iff.mpr covers'.filled) opener known starts

inductive Delivers : Lexer → List Token → Lexer → Prop
  | nothing {lexer : Lexer} : Delivers lexer [] lexer
  | token {lexer between after : Lexer} {token : Token} {tokens : List Token}
      (taken : Lexer.next lexer = .ok (some token) between) (more : Delivers between tokens after) :
      Delivers lexer (token :: tokens) after

theorem Delivers.tiles {after : Lexer} (delivers : Delivers ⟨.into source text offset, none⟩ tokens after) :
    ∃ spans, Tiles text offset tokens spans ∧ after = ⟨.into source text (offset + spans.flatten.length), none⟩ := by
  generalize start : (⟨.into source text offset, none⟩ : Lexer) = lexer at delivers
  induction delivers generalizing offset with
  | nothing => exact ⟨[], .nothing, start.symm⟩
  | @token lexer between after token tokens taken more ih =>
    rw [← start, Lexer.next_ok_iff] at taken
    obtain ⟨there, read, rfl⟩ := taken
    obtain ⟨span, rfl, covers⟩ := covers_of_read read
    obtain ⟨spans, tiles, moved⟩ := ih rfl
    refine ⟨span :: spans, .token covers tiles, ?_⟩
    rw [moved, List.flatten_cons, List.length_append, Nat.add_assoc]

theorem plainText_eq_self {chars : List Char} (plain : ∀ opener ∈ openers, ¬ opener <:+: chars) : plainText chars = chars := by
  induction chars with
  | nil => rfl
  | cons c rest ih =>
    have goes : opensTag (c :: rest) = false := by
      rw [Bool.eq_false_iff]
      intro opens
      obtain ⟨opener, known, starts⟩ := opensTag_iff.mp opens
      exact plain opener known starts.isInfix
    rw [plainText, goes, ih fun opener known within => plain opener known (List.infix_cons within)]
    rfl

/-- A source in which no tag opens is one text, or nothing. -/
private theorem parse_plain (plain : ∀ opener ∈ openers, ¬ opener <:+: text.toList) (partials : Registry) :
    ∃ children, (parse partials [] rootName (Lexer.ofSource rootName text)).1.result = .ok (.block children) ∧
      children = if text = "" then [] else [.text text] := by
  refine ⟨_, ?_, rfl⟩
  by_cases empty : text = ""
  · have read : read? (.ofSource rootName text) = .ok none (.ofSource rootName text) := read_end (by simp [Cursor.ofSource, empty])
    rw [if_pos empty]
    exact parse_of_tokens (tokensFrom_done read) rfl
  · have whole := plainText_eq_self plain
    have filled : text.toList ≠ [] := by simpa using empty
    have opens : opensTag text.toList = false := (plainText_ne_nil_iff.mp (whole.symm ▸ filled)).2
    have formed : readForm (.into rootName text 0) = .ok (.text text) (.into rootName text text.toList.length) := by
      have read := readForm_text (show opensTag (Cursor.into rootName text 0).rest = false from opens)
      rw [rest_into, List.drop_zero, whole, String.ofList_toList] at read
      exact read
    have ended : read? (.into rootName text text.toList.length) = .ok none (.into rootName text text.toList.length) :=
      read_end (by rw [rest_into, List.drop_length])
    have tokens := tokensFrom_token (read_form (show (Cursor.into rootName text 0).rest ≠ [] from filled) formed)
    rw [tokensFrom_done ended] at tokens
    rw [if_neg empty]
    exact parse_of_tokens tokens rfl

/-- The tokens that a source delivers, however many, tile what they were read from; and where no tag opens, the source is
its own output. -/
theorem source_tiled (source text : String) :
    (∀ tokens after, Delivers (.ofSource source text) tokens after → ∃ spans : List (List Char), Tiles text 0 tokens spans ∧
      spans.flatten = text.toList.take after.cursor.offset ∧ after = ⟨.into source text after.cursor.offset, none⟩ ∧
      (∀ last, Lexer.next after = .ok none last → spans.flatten = text.toList) ∧
      tokens.IsChain fun first second => ¬ ((∃ content, first.form = .text content) ∧ ∃ content, second.form = .text content)) ∧
    ((∀ opener ∈ openers, ¬ opener <:+: text.toList) → ∀ partials globals, ∃ template,
      (Template.compile text partials globals).result = .ok template ∧
        ∀ data session, template.render data session = .ok (.text text) session) := by
  constructor
  · intro tokens after delivers
    obtain ⟨spans, tiles, rfl⟩ := Delivers.tiles (show Delivers ⟨.into source text 0, none⟩ tokens after from delivers)
    obtain ⟨rest, split⟩ : spans.flatten <+: text.toList := tiles.flatten
    have consumed : (Cursor.into source text (0 + spans.flatten.length)).offset = spans.flatten.length := by
      simp [Cursor.offset, Cursor.ofSource, ← split]
    refine ⟨spans, tiles, ?_, ?_, ?_, tiles.apart⟩
    · rw [consumed, ← split, List.take_left]
    · rw [consumed, Nat.zero_add]
    · intro last ended
      obtain ⟨there, read, _⟩ := Lexer.next_ok_iff.mp ended
      have behind := read_none read
      rw [rest_into, Nat.zero_add, ← split, List.drop_left] at behind
      rw [← split, behind, List.append_nil]
  · intro plain partials globals
    obtain ⟨children, parsed, same⟩ := parse_plain plain partials
    refine ⟨_, Template.compile_ok_iff.mpr ⟨children, parsed, rfl⟩, ?_⟩
    intro data session
    refine Node.evaluate_block_ok_iff.mpr ⟨text, rfl, ?_⟩
    rw [same]
    split
    next empty =>
      rw [empty]
      rfl
    next =>
      change EStateM.Result.ok (Text.points text ++ []) session = _
      rw [List.append_nil]

end

/-- A brace that opens nothing, for a line break comes between it and the tag. -/
def brace : String := "a\x7b\n\x7b%if 'b'==b%\x7d"

def braceTokens : List Token :=
  [⟨some ⟨1, 0⟩, .text "a\x7b\n"⟩,
    ⟨some ⟨2, 0⟩, .choice [⟨.string, "b", some ⟨2, 5⟩⟩, ⟨.operator, "==", some ⟨2, 8⟩⟩, ⟨.identifier, "b", some ⟨2, 10⟩⟩]⟩]

theorem source_tiled_brace :
    Delivers (.ofSource rootName brace) braceTokens ⟨.into rootName brace 16, none⟩ ∧
      (∃ spans, Tiles brace 0 braceTokens spans ∧ spans.flatten = brace.toList) ∧
      (∀ opener ∈ Token.openers, ¬ opener <:+: "\x7b a \x7d".toList) ∧
      ∃ template, (Template.compile "\x7b a \x7d" .empty (.dict [])).result = .ok template ∧
        ∀ data session, template.render data session = .ok (.text "\x7b a \x7d") session := by
  have text : Lexer.next (.ofSource rootName brace) = .ok (some ⟨some ⟨1, 0⟩, .text "a\x7b\n"⟩) ⟨.into rootName brace 3, none⟩ := by
    cbv
  have choice : Lexer.next ⟨.into rootName brace 3, none⟩ = .ok (some ⟨some ⟨2, 0⟩, .choice [⟨.string, "b", some ⟨2, 5⟩⟩,
      ⟨.operator, "==", some ⟨2, 8⟩⟩, ⟨.identifier, "b", some ⟨2, 10⟩⟩]⟩) ⟨.into rootName brace 16, none⟩ := by cbv
  have ended : Lexer.next ⟨.into rootName brace 16, none⟩ = .ok none ⟨.into rootName brace 16, none⟩ :=
    Lexer.next_ok_iff.mpr ⟨_, Token.read_end (by rw [rest_into]; rfl), rfl⟩
  have delivers : Delivers (.ofSource rootName brace) braceTokens ⟨.into rootName brace 16, none⟩ :=
    .token text (.token choice .nothing)
  have plain : ∀ opener ∈ Token.openers, ¬ opener <:+: "\x7b a \x7d".toList := by decide
  obtain ⟨spans, tiles, _, _, whole, _⟩ := (source_tiled rootName brace).1 _ _ delivers
  exact ⟨delivers, ⟨spans, tiles, whole _ ended⟩, plain, (source_tiled rootName "\x7b a \x7d").2 plain .empty (.dict [])⟩

end Stencil
