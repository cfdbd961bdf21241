import Mathlib
import Stencil.Proofs.TokenRun

/-! What a tree says of the tokens it was made from. A tree is written out from left to right, each construct as the tag
that opens it, its parts and the tag that closes it; a partial is written as its whole tree. Parsing loses, doubles and
moves nothing: what is written out is what was parsed, but for `else` tags with nothing behind them. -/

namespace Stencil

namespace TreeTokens

inductive Mark where
  | text (content : List Text.CodePoint)
  | variable (path : String)
  | loop (iterable binding : String) (position : Option Position)
  | choice (condition : Node)
  | otherwise
  | close
  /-- A tree in the place of a single tag. -/
  | whole (tree : Node)

end TreeTokens

open TreeTokens (Mark)

namespace Node

mutual
def marks : Node → List Mark
  | .constant .text (.text content) => [.text content]
  | .variable path => [.variable path]
  | .loop iterable binding body position => .loop iterable binding position :: (body.bodyMarks ++ [.close])
  | .choice condition consequence alternative =>
    .choice condition :: (consequence.bodyMarks ++ (alternative.elseMarks ++ [.close]))
  | node => [.whole node]

def bodyMarks : Node → List Mark
  | .block children => marksEach children
  | node => [.whole node]

/-- The marks of the second part of a choice. If it is empty, no tag announces it. -/
def elseMarks : Node → List Mark
  | .block [] => []
  | .block (child :: children) => .otherwise :: (child.marks ++ marksEach children)
  | node => [.otherwise, .whole node]

def marksEach : List Node → List Mark
  | [] => []
  | child :: children => child.marks ++ marksEach children
end

@[simp] theorem marksEach_append (first rest : List Node) :
    marksEach (first ++ rest) = marksEach first ++ marksEach rest := by
  induction first with
  | nil => rfl
  | cons child children ih => simp [marksEach, ih]

theorem elseMarks_block {children : List Node} (some : children ≠ []) :
    (block children).elseMarks = .otherwise :: marksEach children := by
  cases children with
  | nil => exact absurd rfl some
  | cons child children => simp [elseMarks, marksEach]

/-- The marks of a node end with one that no `else` tag leaves. -/
theorem marks_end (node : Node) : ∃ front last, node.marks = front ++ [last] ∧ last ≠ .otherwise := by
  fun_cases marks node with
  | case1 content => exact ⟨[], _, rfl, by simp⟩
  | case2 path => exact ⟨[], _, rfl, by simp⟩
  | case3 iterable binding body position => exact ⟨.loop iterable binding position :: body.bodyMarks, .close, rfl, by simp⟩
  | case4 condition consequence alternative =>
    exact ⟨.choice condition :: (consequence.bodyMarks ++ alternative.elseMarks), .close, by simp, by simp⟩
  | case5 node => exact ⟨[], .whole node, rfl, by simp⟩

end Node

namespace TreeTokens

def closesNext : List Token → Bool
  | [] => false
  | token :: _ => token.form = .close

/-- The tokens without the `else` tags whose `end` follows directly. -/
def withoutIdle : List Token → List Token
  | [] => []
  | token :: rest => if token.form = .otherwise && closesNext rest then withoutIdle rest else token :: withoutIdle rest

/-- The mark that a token leaves in a tree parsed for a chain of partials that are being expanded. -/
inductive Leaves (registry : Registry) (chain : List String) (source : String) : Token → Mark → Prop
  | text (position : Option Position) (content : String) :
      Leaves registry chain source ⟨position, .text content⟩ (.text content)
  | variable (position : Option Position) (path : String) :
      Leaves registry chain source ⟨position, .variable path⟩ (.variable path)
  | loop (position : Option Position) (iterable binding : String) :
      Leaves registry chain source ⟨position, .loop iterable binding⟩ (.loop iterable binding position)
  | choice {position : Option Position} {pieces : List Expression.Piece} {condition : Node}
      (sound : Condition.ofPieces ⟨position, source⟩ pieces = .ok condition) :
      Leaves registry chain source ⟨position, .choice pieces⟩ (.choice condition)
  | otherwise (position : Option Position) : Leaves registry chain source ⟨position, .otherwise⟩ .otherwise
  | close (position : Option Position) : Leaves registry chain source ⟨position, .close⟩ .close
  | inclusion {position : Option Position} {name content : String} {tree : Node}
      (registered : registry.find? name = some content) (fresh : name ∉ chain)
      (parsed : (parse registry (chain ++ [name]) name (Lexer.ofSource name content)).1.result = .ok tree) :
      Leaves registry chain source ⟨position, .inclusion name⟩ (.whole tree)

theorem withoutIdle_cons (token : Token) (rest : List Token) : withoutIdle (token :: rest) =
    if token.form = .otherwise && closesNext rest then withoutIdle rest else token :: withoutIdle rest := rfl

/-- No `else` tag is dropped across a seam that an `else` and an `end` do not share. -/
theorem withoutIdle_append (front : List Token) (token : Token) (rest : List Token)
    (apart : token.form = .close → ∀ last, front.getLast? = some last → last.form ≠ .otherwise) :
    withoutIdle (front ++ token :: rest) = withoutIdle front ++ withoutIdle (token :: rest) := by
  induction front with
  | nil => rfl
  | cons first more ih =>
    have seam : (first.form = .otherwise && closesNext (more ++ token :: rest)) =
        (first.form = .otherwise && closesNext more) := by
      cases more with
      | cons second others => rfl
      | nil =>
        by_cases closing : token.form = .close
        · simp [apart closing first rfl]
        · simp [closesNext, closing]
    have later : withoutIdle (more ++ token :: rest) = withoutIdle more ++ withoutIdle (token :: rest) := by
      refine ih fun closing last found => apart closing last ?_
      cases more with
      | nil => cases found
      | cons second others => simpa using found
    rw [List.cons_append, withoutIdle_cons, withoutIdle_cons first more, seam]
    split
    · exact later
    · rw [later, List.cons_append]

theorem withoutIdle_concat {front : List Token} {token : Token}
    (apart : token.form = .close → ∀ last, front.getLast? = some last → last.form ≠ .otherwise) :
    withoutIdle (front ++ [token]) = withoutIdle front ++ [token] := by
  rw [withoutIdle_append front token [] apart]
  simp [withoutIdle, closesNext]

theorem withoutIdle_idle (front : List Token) {divider closing : Token} (divides : divider.form = .otherwise)
    (closes : closing.form = .close) : withoutIdle (front ++ [divider] ++ [closing]) = withoutIdle front ++ [closing] := by
  rw [List.append_assoc, List.singleton_append, withoutIdle_append front divider [closing] (by simp [divides])]
  simp [withoutIdle, closesNext, divides, closes]

theorem getLast_withoutIdle (tokens : List Token) : (withoutIdle tokens).getLast? = tokens.getLast? := by
  rcases List.eq_nil_or_concat tokens with rfl | ⟨front, token, rfl⟩
  · rfl
  · rw [List.concat_eq_append]
    by_cases idle : token.form = .close ∧ ∃ last, front.getLast? = some last ∧ last.form = .otherwise
    · obtain ⟨closes, last, found, divides⟩ := idle
      obtain ⟨before, rfl⟩ := List.getLast?_eq_some_iff.mp found
      rw [withoutIdle_idle before divides closes]
      simp
    · rw [withoutIdle_concat fun closes last found divides => idle ⟨closes, last, found, divides⟩]
      simp

private def openingMarks (opening : Opening) (position : Option Position) : List Mark :=
  match opening with
  | .loop iterable binding => [.loop iterable binding position]
  | .consequence condition => [.choice condition]
  | .alternative condition first => .choice condition :: (first.bodyMarks ++ [.otherwise])

private def enclosingMarks : List Enclosure → List Mark
  | [] => []
  | enclosure :: outer =>
    enclosingMarks outer ++ Node.marksEach enclosure.siblings.reverse ++
      openingMarks enclosure.opening enclosure.position

private def draftMarks (draft : Draft) : List Mark :=
  enclosingMarks draft.enclosures ++ Node.marksEach draft.nodes.reverse

private theorem draftMarks_push (draft : Draft) (node : Node) :
    draftMarks (draft.push node) = draftMarks draft ++ node.marks := by
  simp [draftMarks, Draft.push, Node.marksEach]

private theorem draftMarks_enter (draft : Draft) (opening : Opening) (position : Option Position) :
    draftMarks (draft.enter opening position) = draftMarks draft ++ openingMarks opening position := by
  simp [draftMarks, Draft.enter, enclosingMarks, Node.marksEach]

/-- After an `else` the marks end with it as long as nothing follows, and never end with one elsewhere. -/
private theorem draftMarks_end {draft : Draft} {front : List Mark} (ends : draftMarks draft = front ++ [.otherwise]) :
    ∃ condition first start siblings outer,
      draft = ⟨[], ⟨.alternative condition first, start, siblings⟩ :: outer⟩ := by
  obtain ⟨nodes, enclosures⟩ := draft
  cases nodes with
  | cons node nodes =>
    obtain ⟨before, last, shape, differs⟩ := node.marks_end
    simp only [draftMarks, List.reverse_cons, Node.marksEach_append, Node.marksEach, shape, List.append_nil,
      ← List.append_assoc] at ends
    exact absurd (List.append_inj_right' ends rfl) (by simpa using differs)
  | nil =>
    rcases enclosures with _ | ⟨⟨opening, start, siblings⟩, outer⟩
    · simp [draftMarks, enclosingMarks, Node.marksEach] at ends
    · cases opening with
      | alternative condition first => exact ⟨condition, first, start, siblings, outer, rfl⟩
      | loop iterable binding =>
        simp only [draftMarks, enclosingMarks, openingMarks, Node.marksEach, List.reverse_nil, List.append_nil] at ends
        exact absurd (List.append_inj_right' ends rfl) (by simp)
      | consequence condition =>
        simp only [draftMarks, enclosingMarks, openingMarks, Node.marksEach, List.reverse_nil, List.append_nil] at ends
        exact absurd (List.append_inj_right' ends rfl) (by simp)

private theorem draftMarks_close (nodes siblings : List Node) (opening : Opening) (start : Option Position)
    (outer : List Enclosure) (held : ∀ condition first, opening = .alternative condition first → nodes ≠ []) :
    draftMarks ⟨opening.close start (.block nodes.reverse) :: siblings, outer⟩ =
      draftMarks ⟨nodes, ⟨opening, start, siblings⟩ :: outer⟩ ++ [.close] := by
  cases opening with
  | loop iterable binding =>
    simp [draftMarks, enclosingMarks, openingMarks, Opening.close, Node.marksEach, Node.marks, Node.bodyMarks]
  | consequence condition =>
    simp [draftMarks, enclosingMarks, openingMarks, Opening.close, Node.marksEach, Node.marks, Node.bodyMarks,
      Node.emptyBlock, Node.elseMarks]
  | alternative condition first =>
    have some : nodes.reverse ≠ [] := by simpa using held condition first rfl
    simp [draftMarks, enclosingMarks, openingMarks, Opening.close, Node.marksEach, Node.marks, Node.elseMarks_block some]

section
variable {registry : Registry} {chain : List String} {source : String}

private theorem forall₂_concat {α β : Type} {related : α → β → Prop} {items : List α} {front : List β} {last : β}
    (pairs : List.Forall₂ related items (front ++ [last])) :
    ∃ before final, items = before ++ [final] ∧ List.Forall₂ related before front ∧ related final last := by
  have backwards := List.forall₂_reverse_iff.mpr pairs
  rw [List.reverse_append, List.reverse_singleton, List.singleton_append] at backwards
  obtain ⟨final, before, ends, others, same⟩ := List.forall₂_cons_right_iff.mp backwards
  refine ⟨before.reverse, final, ?_, ?_, ends⟩
  · rw [← List.reverse_reverse items, same, List.reverse_cons]
  · rw [← List.reverse_reverse front]
    exact List.forall₂_reverse_iff.mpr others

private theorem form_of_leaves_otherwise {token : Token} (left : Leaves registry chain source token .otherwise) :
    token.form = .otherwise := by
  cases left
  rfl

private theorem leaves_concat {tokens : List Token} {token : Token} {marks : List Mark} {mark : Mark}
    (kept : List.Forall₂ (Leaves registry chain source) (withoutIdle tokens) marks)
    (left : Leaves registry chain source token mark)
    (apart : token.form = .close → ∀ last, tokens.getLast? = some last → last.form ≠ .otherwise) :
    List.Forall₂ (Leaves registry chain source) (withoutIdle (tokens ++ [token])) (marks ++ [mark]) := by
  rw [withoutIdle_concat apart]
  exact List.rel_append kept (.cons left .nil)

/-- Closing a choice whose second part is empty, its `else` tag leaves with its mark. -/
private theorem close_idle_kept {tokens : List Token} {position start : Option Position} {condition first : Node}
    {siblings : List Node} {outer : List Enclosure}
    (kept : List.Forall₂ (Leaves registry chain source) (withoutIdle tokens)
      (draftMarks ⟨[], ⟨.alternative condition first, start, siblings⟩ :: outer⟩)) :
    List.Forall₂ (Leaves registry chain source) (withoutIdle (tokens ++ [⟨position, .close⟩]))
      (draftMarks ⟨Opening.close (.alternative condition first) start (.block []) :: siblings, outer⟩) := by
  let before := enclosingMarks outer ++ Node.marksEach siblings.reverse ++ (.choice condition :: first.bodyMarks)
  have ends : draftMarks ⟨[], ⟨.alternative condition first, start, siblings⟩ :: outer⟩ = before ++ [.otherwise] := by
    simp [draftMarks, enclosingMarks, openingMarks, Node.marksEach, before]
  have closed : draftMarks ⟨Opening.close (.alternative condition first) start (.block []) :: siblings, outer⟩ =
      before ++ [.close] := by
    simp [draftMarks, Opening.close, Node.marksEach, Node.marks, Node.elseMarks, before]
  rw [ends] at kept
  obtain ⟨front, divider, written, earlier, left⟩ := forall₂_concat kept
  have divides := form_of_leaves_otherwise left
  have last : tokens.getLast? = some divider := by
    rw [← getLast_withoutIdle, written]
    simp
  obtain ⟨shorter, rfl⟩ := List.getLast?_eq_some_iff.mp last
  have same : withoutIdle shorter = front := by
    rw [withoutIdle_concat (by simp [divides])] at written
    exact List.append_inj_left' written rfl
  have dropped : withoutIdle (shorter ++ [divider] ++ [⟨position, .close⟩]) =
      withoutIdle shorter ++ [⟨position, .close⟩] := withoutIdle_idle shorter divides rfl
  rw [closed, dropped, same]
  exact List.rel_append earlier (.cons (.close position) .nil)

private theorem close_kept {tokens : List Token} {position start : Option Position} {nodes siblings : List Node}
    {opening : Opening} {outer : List Enclosure}
    (kept : List.Forall₂ (Leaves registry chain source) (withoutIdle tokens)
      (draftMarks ⟨nodes, ⟨opening, start, siblings⟩ :: outer⟩)) :
    List.Forall₂ (Leaves registry chain source) (withoutIdle (tokens ++ [⟨position, .close⟩]))
      (draftMarks ⟨opening.close start (.block nodes.reverse) :: siblings, outer⟩) := by
  by_cases idle : ∃ condition first, opening = .alternative condition first ∧ nodes = []
  · obtain ⟨condition, first, rfl, rfl⟩ := idle
    exact close_idle_kept kept
  · have held : ∀ condition first, opening = .alternative condition first → nodes ≠ [] :=
      fun condition first same empty => idle ⟨condition, first, same, empty⟩
    rw [draftMarks_close nodes siblings opening start outer held]
    apply leaves_concat kept (.close position)
    intro _ last found divides
    have ends : ∃ front, withoutIdle tokens = front ++ [last] := by
      rw [← List.getLast?_eq_some_iff, getLast_withoutIdle, found]
    obtain ⟨front, written⟩ := ends
    rw [written] at kept
    obtain ⟨marks, mark, shape, _, left⟩ := forall₂_concat kept.flip
    have same : mark = .otherwise := by
      cases left <;> simp_all
    rw [same] at shape
    obtain ⟨condition, first, _, _, _, same⟩ := draftMarks_end shape
    cases same
    exact idle ⟨condition, first, rfl, rfl⟩

private theorem takes_kept {tokens : List Token} {draft next : Draft} {token : Token}
    (taken : Draft.Takes (expand registry chain) source draft token next)
    (kept : List.Forall₂ (Leaves registry chain source) (withoutIdle tokens) (draftMarks draft)) :
    List.Forall₂ (Leaves registry chain source) (withoutIdle (tokens ++ [token])) (draftMarks next) := by
  cases taken with
  | text position content =>
    rw [draftMarks_push]
    exact leaves_concat kept (.text position content) (by simp)
  | «variable» position path =>
    rw [draftMarks_push]
    exact leaves_concat kept (.variable position path) (by simp)
  | inclusion included =>
    obtain ⟨content, registered, fresh, parsed⟩ := expand_ok_iff.mp included
    obtain ⟨_, nodes, rfl, _⟩ := parse_ok.mp parsed
    rw [draftMarks_push]
    exact leaves_concat kept (.inclusion registered fresh parsed) (by simp)
  | loop position iterable binding =>
    rw [draftMarks_enter]
    exact leaves_concat kept (.loop position iterable binding) (by simp)
  | choice sound =>
    rw [draftMarks_enter]
    exact leaves_concat kept (.choice sound) (by simp)
  | otherwise nodes siblings condition start position outer =>
    have divided : draftMarks ⟨[], ⟨.alternative condition (.block nodes.reverse), start, siblings⟩ :: outer⟩ =
        draftMarks ⟨nodes, ⟨.consequence condition, start, siblings⟩ :: outer⟩ ++ [.otherwise] := by
      simp [draftMarks, enclosingMarks, openingMarks, Node.marksEach, Node.bodyMarks]
    rw [divided]
    exact leaves_concat kept (.otherwise position) (by simp)
  | close nodes siblings opening start position outer => exact close_kept kept

private theorem acceptAll_kept (earlier : List Token) {tokens : List Token} {draft final : Draft}
    (accepted : draft.acceptAll (expand registry chain) source tokens = .ok final)
    (kept : List.Forall₂ (Leaves registry chain source) (withoutIdle earlier) (draftMarks draft)) :
    List.Forall₂ (Leaves registry chain source) (withoutIdle (earlier ++ tokens)) (draftMarks final) := by
  induction tokens generalizing earlier draft with
  | nil =>
    cases accepted
    simpa using kept
  | cons token tokens ih =>
    obtain ⟨next, taken, rest⟩ := Draft.acceptAll_cons_ok.mp accepted
    simpa using ih (earlier ++ [token]) rest (takes_kept taken kept)

/-- A tree written out gives the tokens it was parsed from, each with the mark it leaves, but for the `else` tags with
nothing behind them. -/
theorem parse_keeps_tokens (registry : Registry) (chain : List String) (source : String) (tokens : List Token) {tree : Node}
    (parsed : (parse registry chain source tokens).1.result = .ok tree) :
    ∃ children, tree = .block children ∧
      List.Forall₂ (Leaves registry chain source) (withoutIdle tokens) (Node.marksEach children) := by
  obtain ⟨_, nodes, rfl, taken⟩ := parse_ok.mp parsed
  rw [TokenStream.drain_list] at taken
  have kept := acceptAll_kept [] taken .nil
  exact ⟨nodes.reverse, rfl, by simpa [draftMarks, enclosingMarks] using kept⟩

end

/-- An idle `else`, and a loop around a partial and a choice that renders something only in its second part. -/
def nested : List Token :=
  let condition := .choice [⟨.identifier, "a", none⟩, ⟨.identifier, "exists", none⟩]
  [⟨some ⟨1, 0⟩, condition⟩, ⟨none, .text "x"⟩, ⟨none, .otherwise⟩, ⟨none, .close⟩, ⟨some ⟨2, 0⟩, .loop "xs" "x"⟩,
   ⟨none, .inclusion "p"⟩, ⟨none, condition⟩, ⟨none, .otherwise⟩, ⟨none, .variable "b"⟩, ⟨none, .close⟩, ⟨none, .close⟩]

def nestedTree : Node :=
  let condition := .binary .differs (.variable "a") (.variable "undefined")
  .block [.choice condition (.block [.text "x"]) (.block []),
    .loop "xs" "x" (.block [.block [.text "y", .variable "v"], .choice condition (.block []) (.block [.variable "b"])])
      (some ⟨2, 0⟩)]

theorem nested_keeps_tokens : (parse ⟨[("p", "y\x7b\x7bv\x7d\x7d")]⟩ [] rootName nested).1.result = .ok nestedTree ∧
    ∃ children, nestedTree = .block children ∧
      List.Forall₂ (Leaves ⟨[("p", "y\x7b\x7bv\x7d\x7d")]⟩ [] rootName) (withoutIdle nested) (Node.marksEach children) := by
  have parsed : (parse ⟨[("p", "y\x7b\x7bv\x7d\x7d")]⟩ [] rootName nested).1.result = .ok nestedTree := by cbv
  exact ⟨parsed, parse_keeps_tokens _ _ _ _ parsed⟩

end TreeTokens
end Stencil
