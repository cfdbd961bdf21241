import Mathlib.Data.List.Forall2
import Stencil.Proofs.EvaluationReach
import Stencil.Proofs.TokenRun

/-! Trees that no evaluation tells apart. Constructs around equivalent parts are equivalent, and a block among other nodes
is equivalent to what it holds. So drafts that differ in such parts only stay equivalent, whatever tokens follow. -/

namespace Stencil

namespace Node

/-- Both come to the same value or failure in every environment, and leave the same session behind. -/
def Equivalent (first second : Node) : Prop :=
  ∀ environment, evaluate environment first = evaluate environment second

/-- The same for nodes side by side. -/
def EquivalentEach (first second : List Node) : Prop :=
  ∀ environment, evaluateEach environment first = evaluateEach environment second

namespace EquivalentEach

theorem refl (nodes : List Node) : EquivalentEach nodes nodes := fun _ => rfl

theorem append {first second first' second' : List Node} (one : EquivalentEach first first')
    (two : EquivalentEach second second') : EquivalentEach (first ++ second) (first' ++ second') := by
  intro environment
  rw [evaluateEach_append, evaluateEach_append, one environment, two environment]

theorem singleton {first second : Node} (same : Equivalent first second) : EquivalentEach [first] [second] := by
  intro environment
  simp only [evaluateEach, same environment]

/-- A block among other nodes adds nothing to what it holds. -/
theorem dissolve (children : List Node) : EquivalentEach [.block children] children := by
  intro environment
  simp only [evaluateEach, evaluate, bind_assoc, pure_bind, Value.plain, List.append_nil, bind_pure]

theorem block {first second : List Node} (same : EquivalentEach first second) :
    Equivalent (.block first) (.block second) := by
  intro environment
  rw [evaluate, evaluate, same environment]

end EquivalentEach

namespace Equivalent

theorem refl (node : Node) : Equivalent node node := fun _ => rfl

theorem loop {first second : Node} (same : Equivalent first second) (iterable binding : String)
    (position : Option Position) :
    Equivalent (.loop iterable binding first position) (.loop iterable binding second position) := by
  intro environment
  have rounds : (fun item => evaluate (environment.bind binding item) first) =
      fun item => evaluate (environment.bind binding item) second := funext fun item => same (environment.bind binding item)
  rw [evaluate, evaluate, rounds]

theorem choice {first second first' second' : Node} (condition : Node) (one : Equivalent first first')
    (two : Equivalent second second') : Equivalent (.choice condition first second) (.choice condition first' second') := by
  intro environment
  rw [evaluate, evaluate, one environment, two environment]

end Equivalent

end Node

open Node (EquivalentEach)

/-- The same construct is open, and what it has got so far is equivalent. -/
inductive Opening.Equivalent : Opening → Opening → Prop
  | loop (iterable binding : String) : Opening.Equivalent (.loop iterable binding) (.loop iterable binding)
  | consequence (condition : Node) : Opening.Equivalent (.consequence condition) (.consequence condition)
  | alternative (condition : Node) {first first' : Node} (same : first.Equivalent first') :
      Opening.Equivalent (.alternative condition first) (.alternative condition first')

theorem Opening.Equivalent.refl (opening : Opening) : opening.Equivalent opening := by
  cases opening with
  | loop iterable binding => exact .loop iterable binding
  | consequence condition => exact .consequence condition
  | alternative condition first => exact .alternative condition (.refl first)

theorem Opening.Equivalent.close {opening opening' : Opening} (same : opening.Equivalent opening')
    (position : Option Position) {body body' : Node} (parts : body.Equivalent body') :
    (opening.close position body).Equivalent (opening'.close position body') := by
  cases same with
  | loop iterable binding => exact parts.loop iterable binding position
  | consequence condition => exact .choice condition parts (.refl _)
  | alternative condition first => exact .choice condition first parts

structure Enclosure.Equivalent (first second : Enclosure) : Prop where
  opening : first.opening.Equivalent second.opening
  position : first.position = second.position
  siblings : EquivalentEach first.siblings.reverse second.siblings.reverse

theorem Enclosure.Equivalent.refl (enclosure : Enclosure) : enclosure.Equivalent enclosure := ⟨.refl _, rfl, .refl _⟩

namespace Draft
variable {inclusion : Inclusion} {source : String} {draft draft' next final : Draft}

structure Equivalent (first second : Draft) : Prop where
  nodes : EquivalentEach first.nodes.reverse second.nodes.reverse
  enclosures : List.Forall₂ Enclosure.Equivalent first.enclosures second.enclosures

theorem Equivalent.push (same : draft.Equivalent draft') {node node' : Node} (nodes : node.Equivalent node') :
    (draft.push node).Equivalent (draft'.push node') := by
  refine ⟨?_, same.enclosures⟩
  simpa [Draft.push] using same.nodes.append (.singleton nodes)

theorem Equivalent.enter (same : draft.Equivalent draft') (opening : Opening) (position : Option Position) :
    (draft.enter opening position).Equivalent (draft'.enter opening position) :=
  ⟨.refl [], .cons ⟨.refl opening, rfl, same.nodes⟩ same.enclosures⟩

/-- Equivalent drafts take the same tokens, and stay equivalent. -/
theorem Takes.equivalent {token : Token} (taken : Takes inclusion source draft token next) (same : draft.Equivalent draft') :
    ∃ next', Takes inclusion source draft' token next' ∧ next.Equivalent next' := by
  cases taken with
  | text position content => exact ⟨_, .text position content, same.push (.refl _)⟩
  | «variable» position path => exact ⟨_, .variable position path, same.push (.refl _)⟩
  | inclusion included => exact ⟨_, .inclusion included, same.push (.refl _)⟩
  | loop position iterable binding => exact ⟨_, .loop position iterable binding, same.enter _ position⟩
  | choice sound => exact ⟨_, .choice sound, same.enter _ _⟩
  | otherwise nodes siblings condition start position outer =>
    obtain ⟨nodes', enclosures'⟩ := draft'
    obtain ⟨⟨opening, place, before⟩, around, ⟨open_, placed, others⟩, enclosing, whole⟩ :=
      List.forall₂_cons_left_iff.mp same.enclosures
    cases whole
    cases open_
    cases placed
    exact ⟨_, .otherwise nodes' before condition start position around,
      .refl [], .cons ⟨.alternative condition same.nodes.block, rfl, others⟩ enclosing⟩
  | close nodes siblings opening start position outer =>
    obtain ⟨nodes', enclosures'⟩ := draft'
    obtain ⟨⟨opening', place, before⟩, around, ⟨open_, placed, others⟩, enclosing, whole⟩ :=
      List.forall₂_cons_left_iff.mp same.enclosures
    cases whole
    cases placed
    have closed := open_.close start same.nodes.block
    refine ⟨_, .close nodes' before opening' start position around, ?_, enclosing⟩
    simpa using others.append (.singleton closed)

theorem acceptAll_equivalent {tokens : List Token} (taken : draft.acceptAll inclusion source tokens = .ok final)
    (same : draft.Equivalent draft') :
    ∃ final', draft'.acceptAll inclusion source tokens = .ok final' ∧ final.Equivalent final' := by
  induction tokens generalizing draft draft' with
  | nil =>
    cases taken
    exact ⟨draft', rfl, same⟩
  | cons token tokens ih =>
    obtain ⟨next, first, rest⟩ := acceptAll_cons_ok.mp taken
    obtain ⟨next', first', kept⟩ := first.equivalent same
    obtain ⟨final', rest', last⟩ := ih rest kept
    exact ⟨final', acceptAll_cons_ok.mpr ⟨next', first', rest'⟩, last⟩

end Draft
end Stencil
