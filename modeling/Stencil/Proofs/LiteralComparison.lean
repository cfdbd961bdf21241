import Mathlib
import Stencil.Proofs.ConditionTests
import Stencil.Proofs.IntegerRounding
import Stencil.Proofs.NumeralDigits
import Stencil.Proofs.TagGrammar

/-! Integers in conditions. An integer in a source is read as the nearest floating point number, and an integer in the data is
compared with that, exactly. So they are equal exactly if the one is the other rounded. -/

namespace Stencil
open Text Number

namespace Template
open Environment (forRender)
open Expression (Piece Separate SpelledAll)

/-- What a choice between two words has behind its first tag. -/
def outcomes : String := "yes\x7b% else %\x7dno\x7b% end %\x7d"

private theorem outcomes_read :
    Token.read? (.into rootName outcomes 0) = .ok (some ⟨some ⟨1, 0⟩, .text "yes"⟩) (.into rootName outcomes 3) ∧
      Token.read? (.into rootName outcomes 3) = .ok (some ⟨some ⟨1, 3⟩, .otherwise⟩) (.into rootName outcomes 13) ∧
      Token.read? (.into rootName outcomes 13) = .ok (some ⟨some ⟨1, 13⟩, .text "no"⟩) (.into rootName outcomes 15) ∧
      Token.read? (.into rootName outcomes 15) = .ok (some ⟨some ⟨1, 15⟩, .close⟩) (.into rootName outcomes 24) ∧
      Token.read? (.into rootName outcomes 24) = .ok none (.into rootName outcomes 24) := by
  refine ⟨?_, ?_, ?_, ?_, ?_⟩ <;> cbv

private def outcomeTokens : List Token :=
  [⟨some ⟨1, 0⟩, .text "yes"⟩, ⟨some ⟨1, 3⟩, .otherwise⟩, ⟨some ⟨1, 13⟩, .text "no"⟩, ⟨some ⟨1, 15⟩, .close⟩]

private theorem outcomes_tokens :
    tokensFrom (.ofSource rootName outcomes) = (outcomeTokens, none, ⟨.into rootName outcomes 24, none⟩) := by
  obtain ⟨yes, otherwise, no, close, ended⟩ := outcomes_read
  change tokensFrom (.into rootName outcomes 0) = _
  rw [tokensFrom_token yes, tokensFrom_token otherwise, tokensFrom_token no, tokensFrom_token close, tokensFrom_done ended]
  rfl

def deciding (condition : Node) : Node := .block [.choice condition (.block [.text "yes"]) (.block [.text "no"])]

private theorem deciding_compiled {tag : List Char} {pieces : List Piece} {condition : Node} (opens : Token.opensTag tag = true)
    (spelled : Token.Spelled Separate ⟨1, 0⟩ (.choice pieces) tag)
    (sound : ∀ site, Condition.ofPieces site pieces = .ok condition) (partials : Registry) (globals : Value) :
    (compile (String.ofList tag ++ outcomes) partials globals).result = .ok ⟨deciding condition, partials, globals⟩ := by
  generalize start : Cursor.ofSource rootName (String.ofList tag ++ outcomes) = cursor
  have ahead : cursor.rest = tag ++ outcomes.toList := by simp [← start, Cursor.ofSource]
  have place : cursor.position = ⟨1, 0⟩ := by rw [← start]; rfl
  have tagged : Token.opensTag cursor.rest = true := by rw [ahead, Token.opensTag_append_of_opens opens]
  have formed := (Token.exactlyAt_readForm tagged).reads ahead (place ▸ spelled)
  have read := Token.read_form (by simp [ahead, outcomes]) formed
  have beyond : Cursor.Beyond (.of (String.ofList tag).toList) [] (.ofSource rootName outcomes)
      (cursor.forwardBy tag.length) := by
    have placed : cursor.Placed := start ▸ Cursor.placed_ofSource _ _
    refine Cursor.beyond_of_read (placed.forwardBy _) ?_ ?_
    · simp [← start, Cursor.ofSource]
    · simp [ahead]
  obtain ⟨tokens, fault⟩ := tokensFrom_beyond beyond (by rw [outcomes_tokens])
  have whole := tokensFrom_token read
  rw [tokens, outcomes_tokens, show (tokensFrom (cursor.forwardBy tag.length)).2 = (none, _) from Prod.ext fault rfl,
    ← start] at whole
  have taken : (Draft.empty.enter (.consequence condition) (some cursor.position)).acceptAll (expand partials []) rootName
      (outcomeTokens.map (Token.shift (.of (String.ofList tag).toList))) =
        .ok ⟨[.choice condition (.block [.text "yes"]) (.block [.text "no"])], []⟩ := rfl
  exact compile_ok_iff.mpr ⟨_, parse_of_tokens whole (Draft.acceptAll_cons_ok.mpr ⟨_, .choice (sound _), taken⟩), rfl⟩

def comparing (sign : String) (n : Nat) : String :=
  "\x7b% if x " ++ sign ++ " " ++ toString n ++ " %\x7d" ++ outcomes

private theorem parted_of_blank (last : Option Expression.Kind) (pieces : List Piece) (more : List Char) :
    Expression.Parted Separate last pieces (' ' :: more) := by
  intro _ _ stops
  exact absurd (Scan.stops_cons.mp stops) (by decide)

private theorem spelledAll_blank {place : Position} {kind : Expression.Kind} {value : String} {text more : List Char}
    {pieces : List Piece} (spelled : Expression.Spelled kind value text)
    (others : SpelledAll Separate (place.past (' ' :: text)) pieces (' ' :: more)) :
    SpelledAll Separate place (⟨kind, value, some (place.past [' '])⟩ :: pieces) (' ' :: text ++ ' ' :: more) :=
  .piece (List.forall_mem_singleton.mpr (by decide)) rfl spelled (parted_of_blank _ _ _) others

/-- A variable, a sign and an integer, with a blank before each. -/
private theorem comparing_spelled {sign : String} {operator : Node.Operator} (known : sign.toList ∈ Expression.operators)
    (compares : ∀ position, Condition.comparison? ⟨.operator, sign, position⟩ = some operator) (n : Nat) : ∃ tag pieces,
    comparing sign n = String.ofList tag ++ outcomes ∧ Token.opensTag tag = true ∧
      Token.Spelled Separate ⟨1, 0⟩ (.choice pieces) tag ∧
      ∀ site, Condition.ofPieces site pieces =
        .ok (.binary operator (.variable "x") (.constant .number (.float (.ofDecimal false n 0)))) := by
  have blank : ∀ c ∈ [' '], isBlank c = true := List.forall_mem_singleton.mpr (by decide)
  have named : Expression.Spelled .identifier "x" ['x'] := @Expression.Spelled.identifier 'x' [] (by decide) (by simp)
  have signed : Expression.Spelled .operator sign sign.toList := by simpa using Expression.Spelled.operator known
  have number : Expression.Spelled .number (toString n) (Nat.toDigits 10 n) := by
    rw [Nat.toString_eq_ofList_toDigits]
    exact .whole Nat.toDigits_ne_nil fun c member => isDigit_of_plain (isPlainDigit_of_mem_toDigits member)
  refine ⟨_, _, ?_, ?_, .choice blank (parted_of_blank _ _ _)
    (spelledAll_blank named (spelledAll_blank signed (spelledAll_blank number (.close blank)))), ?_⟩
  · rw [comparing, Nat.toString_eq_ofList_toDigits, ← String.toList_inj]
    simp [Token.controlOpen, Token.Keyword.text, Expression.controlClose]
  · rfl
  · intro site
    have read (position : Option Position) : Condition.valueOf site ⟨.number, toString n, position⟩ =
        .ok (.constant .number (.float (.ofDecimal false n 0))) := by
      rw [Condition.valueOf]
      simp only [numeral_toString]
    exact Condition.ofPieces_ok_iff.mpr (Condition.tests_single (.comparison rfl (compares _) (read _)))

private theorem comparing_compiled {sign : String} {operator : Node.Operator} (known : sign.toList ∈ Expression.operators)
    (compares : ∀ position, Condition.comparison? ⟨.operator, sign, position⟩ = some operator) (n : Nat) (partials : Registry)
    (globals : Value) : (compile (comparing sign n) partials globals).result =
      .ok ⟨deciding (.binary operator (.variable "x") (.constant .number (.float (.ofDecimal false n 0)))), partials, globals⟩ := by
  obtain ⟨tag, pieces, same, opens, spelled, sound⟩ := comparing_spelled known compares n
  rw [same]
  exact deciding_compiled opens spelled sound partials globals

private theorem render_deciding {condition : Node} {data globals : Value} {verdict : Bool} (partials : Registry)
    (decided : condition.evaluate (forRender data globals) = pure (.bool verdict)) (session : Session) :
    render ⟨deciding condition, partials, globals⟩ data session = .ok (.text (if verdict then "yes" else "no")) session := by
  cases verdict <;> simp only [render, deciding, Node.evaluate, Node.evaluateEach, decided, pure_bind] <;> rfl

section
variable {environment : Environment} {m : Int}

private theorem evaluate_equals (bound : environment.resolve "x" = .int m) (n : Nat) :
    (Node.binary .equals (.variable "x") (.constant .number (.float (.ofDecimal false n 0)))).evaluate environment =
      pure (.bool ((Binary64.ofDecimal false n 0).equalsInt m)) := by
  simp only [Node.evaluate, bound, pure_bind, Value.strictEquals, Value.alike]

private theorem evaluate_differs (bound : environment.resolve "x" = .int m) (n : Nat) :
    (Node.binary .differs (.variable "x") (.constant .number (.float (.ofDecimal false n 0)))).evaluate environment =
      pure (.bool !(Binary64.ofDecimal false n 0).equalsInt m) := by
  simp only [Node.evaluate, bound, pure_bind, Value.strictEquals, Value.alike]

end

private theorem resolve_single (m : Int) : (forRender (.dict [(.text "x", .int m)]) (.dict [])).resolve "x" = .int m := rfl

/-- Where a variable stands for an integer, comparing it with an integer in the source tells whether it is the floating point
number nearest to that one. So it tells whether the two are the same as long as the one in the source is such a number itself,
as all are up to the 53rd power of two. -/
theorem comparing_integers {data globals : Value} {n m : Nat} (partials : Registry)
    (bound : (forRender data globals).resolve "x" = .int m) :
    ∃ equal different : Template, ∃ verdict : Bool,
      (compile (comparing "==" n) partials globals).result = .ok equal ∧
      (compile (comparing "!=" n) partials globals).result = .ok different ∧
      (∀ session, equal.render data session = .ok (.text (if verdict then "yes" else "no")) session ∧
        different.render data session = .ok (.text (if verdict then "no" else "yes")) session) ∧
      (verdict = true ↔ IsNearest n m ∧ m < Binary64.integersBeyond) ∧
      (Spans 53 n → n < Binary64.integersBeyond → (verdict = true ↔ m = n)) ∧
      (n ≤ 2 ^ 53 → (verdict = true ↔ m = n)) := by
  have rounds := Binary64.equalsInt_ofDecimal n m
  have exact (spans : Spans 53 n) (finite : n < Binary64.integersBeyond) :
      (Binary64.ofDecimal false n 0).equalsInt m = true ↔ m = n := by
    rw [rounds, isNearest_iff_of_spans spans, and_iff_left_iff_imp]
    rintro rfl
    exact finite
  have renders := render_deciding partials (evaluate_equals bound n)
  have renders' := render_deciding partials (evaluate_differs bound n)
  refine ⟨_, _, (Binary64.ofDecimal false n 0).equalsInt m, comparing_compiled (by decide) (fun _ => rfl) n partials globals,
    comparing_compiled (by decide) (fun _ => rfl) n partials globals, fun session => ⟨renders session, ?_⟩, rounds, exact, ?_⟩
  · rw [renders' session]
    cases (Binary64.ofDecimal false n 0).equalsInt m <;> rfl
  · intro small
    exact exact (spans_of_small small) (Nat.lt_of_le_of_lt small (by decide +kernel))

/-- Halfway between two floating point numbers, the one of even significand counts. -/
theorem comparing_integers_halfway :
    (forRender (.dict [(.text "x", .int 9007199254740996)]) (.dict [])).resolve "x" = .int 9007199254740996 ∧
      ∃ equal different,
        (compile (comparing "==" 9007199254740995) .empty (.dict [])).result = .ok equal ∧
        (compile (comparing "!=" 9007199254740995) .empty (.dict [])).result = .ok different ∧
        ∀ session, equal.render (.dict [(.text "x", .int 9007199254740996)]) session = .ok (.text "yes") session ∧
          different.render (.dict [(.text "x", .int 9007199254740996)]) session = .ok (.text "no") session := by
  have bound : (forRender (.dict [(.text "x", .int 9007199254740996)]) (.dict [])).resolve "x" =
      .int (9007199254740996 : Nat) := resolve_single 9007199254740996
  obtain ⟨equal, different, verdict, one, two, renders, same, _⟩ := @comparing_integers _ _ 9007199254740995 _ .empty bound
  have nearest : IsNearest 9007199254740995 9007199254740996 ∧ 9007199254740996 < Binary64.integersBeyond :=
    ⟨isNearest_iff.mpr (by decide +kernel), by decide +kernel⟩
  rw [same.mpr nearest] at renders
  exact ⟨bound, equal, different, one, two, renders⟩

/-- Above the 53rd power of two an integer may count as another. -/
theorem comparing_integers_collision : ∃ template,
    (compile (comparing "==" 9007199254740993) .empty (.dict [])).result = .ok template ∧
      template.render (.dict [(.text "x", .int 9007199254740992)]) .empty = .ok (.text "yes") .empty ∧
      9007199254740992 ≠ 9007199254740993 := by
  have nearest : IsNearest 9007199254740993 9007199254740992 ∧ 9007199254740992 < Binary64.integersBeyond :=
    ⟨isNearest_iff.mpr (by decide +kernel), by decide +kernel⟩
  have renders := render_deciding .empty (evaluate_equals (resolve_single 9007199254740992) 9007199254740993) .empty
  have equal : (Binary64.ofDecimal false 9007199254740993 0).equalsInt 9007199254740992 = true :=
    (Binary64.equalsInt_ofDecimal _ _).mpr nearest
  rw [equal] at renders
  exact ⟨_, comparing_compiled (by decide) (fun _ => rfl) _ _ _, renders, by decide⟩

end Template
end Stencil
