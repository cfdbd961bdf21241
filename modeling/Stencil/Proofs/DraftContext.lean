import Stencil.Proofs.TokenRun

/-! Tokens in their surroundings. What a run of tokens does to a draft it does on top of any other, so tokens that balance
among themselves add the same nodes wherever they stand. -/

namespace Stencil

namespace Draft

/-- Open constructs on top of a base. The outermost of them stands behind the nodes of the base. -/
def settle (base : Draft) : List Enclosure → List Enclosure
  | [] => base.enclosures
  | [outermost] => { outermost with siblings := outermost.siblings ++ base.nodes } :: base.enclosures
  | enclosure :: outer => enclosure :: settle base outer

def onto (base draft : Draft) : Draft :=
  match draft.enclosures with
  | [] => ⟨draft.nodes ++ base.nodes, base.enclosures⟩
  | enclosures => ⟨draft.nodes, settle base enclosures⟩

theorem onto_push (base draft : Draft) (node : Node) : base.onto (draft.push node) = (base.onto draft).push node := by
  obtain ⟨nodes, enclosures⟩ := draft
  cases enclosures <;> rfl

theorem onto_enter (base draft : Draft) (opening : Opening) (position : Option Position) :
    base.onto (draft.enter opening position) = (base.onto draft).enter opening position := by
  obtain ⟨nodes, enclosures⟩ := draft
  cases enclosures <;> rfl

private theorem onto_inner (base : Draft) (enclosure : Enclosure) (outer : List Enclosure) :
    ∃ siblings around, (∀ opening nodes, base.onto ⟨nodes, { enclosure with opening := opening } :: outer⟩ =
        ⟨nodes, ⟨opening, enclosure.position, siblings⟩ :: around⟩) ∧
      ∀ node, base.onto ⟨node :: enclosure.siblings, outer⟩ = ⟨node :: siblings, around⟩ := by
  cases outer with
  | nil => exact ⟨enclosure.siblings ++ base.nodes, base.enclosures, fun _ _ => rfl, fun _ => rfl⟩
  | cons next more => exact ⟨enclosure.siblings, settle base (next :: more), fun _ _ => rfl, fun _ => rfl⟩

variable {inclusion : Inclusion} {source : String}

theorem Takes.onto (base : Draft) {draft next : Draft} {token : Token} (taken : Takes inclusion source draft token next) :
    Takes inclusion source (base.onto draft) token (base.onto next) := by
  cases taken with
  | text position content =>
    rw [onto_push]
    exact .text position content
  | «variable» position path =>
    rw [onto_push]
    exact .variable position path
  | inclusion included =>
    rw [onto_push]
    exact .inclusion included
  | loop position iterable binding =>
    rw [onto_enter]
    exact .loop position iterable binding
  | choice sound =>
    rw [onto_enter]
    exact .choice sound
  | otherwise nodes siblings condition start position outer =>
    obtain ⟨before, around, opened, _⟩ := onto_inner base ⟨.consequence condition, start, siblings⟩ outer
    rw [opened (.consequence condition) nodes, opened (.alternative condition (.block nodes.reverse)) []]
    exact .otherwise nodes before condition start position around
  | close nodes siblings opening start position outer =>
    obtain ⟨before, around, opened, closed⟩ := onto_inner base ⟨opening, start, siblings⟩ outer
    rw [opened opening nodes, closed]
    exact .close nodes before opening start position around

theorem acceptAll_onto (base : Draft) {draft final : Draft} {tokens : List Token}
    (taken : draft.acceptAll inclusion source tokens = .ok final) :
    (base.onto draft).acceptAll inclusion source tokens = .ok (base.onto final) := by
  induction tokens generalizing draft with
  | nil => cases taken; rfl
  | cons token tokens ih =>
    obtain ⟨next, first, rest⟩ := acceptAll_cons_ok.mp taken
    exact acceptAll_cons_ok.mpr ⟨base.onto next, first.onto base, ih rest⟩

/-- Tokens that balance among themselves add their nodes to any draft. -/
theorem acceptAll_balanced {nodes : List Node} {tokens : List Token}
    (balanced : empty.acceptAll inclusion source tokens = .ok ⟨nodes, []⟩) (base : Draft) :
    base.acceptAll inclusion source tokens = .ok ⟨nodes ++ base.nodes, base.enclosures⟩ :=
  acceptAll_onto base balanced

/-- A base in which nothing is open takes no part in what happens on top of it, be it a failure. -/
theorem accept_flat (before : List Node) (draft : Draft) (token : Token) :
    ((onto ⟨before, []⟩ draft).accept inclusion source token).result =
      (draft.accept inclusion source token).result.map (onto ⟨before, []⟩) := by
  obtain ⟨position, form⟩ := token
  cases form with
  | text content => exact congrArg Except.ok (onto_push ⟨before, []⟩ draft _).symm
  | «variable» path => exact congrArg Except.ok (onto_push ⟨before, []⟩ draft _).symm
  | loop iterable binding => exact congrArg Except.ok (onto_enter ⟨before, []⟩ draft _ _).symm
  | inclusion name =>
    simp only [accept, Compilation.result_bind]
    cases (inclusion name position source).result with
    | error failure => rfl
    | ok tree => exact congrArg Except.ok (onto_push ⟨before, []⟩ draft tree).symm
  | choice pieces =>
    simp only [accept, Compilation.result_bind, Compilation.result_ofExcept]
    cases Condition.ofPieces ⟨position, source⟩ pieces with
    | error failure => rfl
    | ok condition => exact congrArg Except.ok (onto_enter ⟨before, []⟩ draft _ _).symm
  | otherwise =>
    obtain ⟨nodes, _ | ⟨⟨_ | _ | _, start, siblings⟩, _ | ⟨next, outer⟩⟩⟩ := draft <;> rfl
  | close =>
    obtain ⟨nodes, _ | ⟨⟨opening, start, siblings⟩, _ | ⟨next, outer⟩⟩⟩ := draft <;> rfl
  | bare => rfl

theorem acceptAll_flat (before : List Node) (draft : Draft) (tokens : List Token) :
    (onto ⟨before, []⟩ draft).acceptAll inclusion source tokens =
      (draft.acceptAll inclusion source tokens).map (onto ⟨before, []⟩) := by
  induction tokens generalizing draft with
  | nil => rfl
  | cons token tokens ih =>
    rw [acceptAll_cons, acceptAll_cons, accept_flat]
    cases (draft.accept inclusion source token).result with
    | error failure => rfl
    | ok next => exact ih next

end Draft
end Stencil
