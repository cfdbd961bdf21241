import Mathlib
import Stencil.Proofs.DescentSimulation
import Stencil.Proofs.InclusionTrails

/-! Partials that matter. What parsing makes of a source depends on the source and on what the registry holds under the names
that can be reached from it. Where there is a tree, all of these are registered, so that further partials leave it as it is. -/

namespace Stencil
open InclusionTrails
open Relation (ReflTransGen)

namespace Registry

def without (registry : Registry) (name : String) : Registry := ⟨registry.entries.filter (·.1 ≠ name)⟩

variable {registry : Registry} {name other : String}

theorem find_without_other (apart : other ≠ name) : (registry.without name).find? other = registry.find? other := by
  obtain ⟨entries⟩ := registry
  have differs : (other == name) = false := beq_false_of_ne apart
  simp only [find?, without]
  induction entries with
  | nil => rfl
  | cons entry entries ih =>
    obtain ⟨first, held⟩ := entry
    by_cases same : first = name
    · rw [List.filter_cons_of_neg (by simpa using same), ih, same, List.lookup_cons, differs]
    · rw [List.filter_cons_of_pos (by simpa using same), List.lookup_cons, List.lookup_cons, ih]

end Registry

namespace Draft
variable {inclusion other : Inclusion} {source : String}

theorem accept_congr (draft : Draft) {token : Token}
    (same : ∀ tag ∈ named? token, other tag.1 tag.2 source = inclusion tag.1 tag.2 source) :
    draft.accept other source token = draft.accept inclusion source token := by
  obtain ⟨position, form⟩ := token
  cases form with
  | inclusion name => simp only [accept, same (name, position) rfl]
  | _ => rfl

/-- Of inclusion nothing matters but what becomes of the partial tags among the tokens. -/
theorem complete_congr {σ : Type} [TokenStream σ] (draft : Draft) (stream : σ)
    (same : ∀ token ∈ (TokenStream.drain stream).1, ∀ tag ∈ named? token,
      other tag.1 tag.2 source = inclusion tag.1 tag.2 source) :
    draft.complete other source stream = draft.complete inclusion source stream := by
  fun_induction draft.complete inclusion source stream with
  | case1 draft stream problem rest failed => rw [complete_fault draft failed]
  | case2 draft stream rest ended => rw [complete_done draft ended]
  | case3 draft stream token rest taken accepted failure refused =>
    rw [TokenStream.drain_token taken, List.forall_mem_cons] at same
    have accepts : draft.accept other source token = accepted := draft.accept_congr same.1
    rw [complete_refused taken (accepts ▸ refused), accepts]
  | case4 draft stream token rest taken accepted next kept completed left finished ih =>
    rw [TokenStream.drain_token taken, List.forall_mem_cons] at same
    have accepts : draft.accept other source token = accepted := draft.accept_congr same.1
    rw [complete_taken taken (accepts ▸ kept), accepts, ih same.2, finished]

end Draft

section
variable {registry other : Registry} {Among : String → Prop}

/-- A partial matters to those that lead to it: registries make the same of a name if they agree on what it leads to. -/
theorem expand_agree (closed : ∀ outer inner, Among outer → Leads registry outer inner → Among inner)
    (agree : ∀ name, Among name → other.find? name = registry.find? name) {name : String} (among : Among name)
    (chain : List String) (position : Option Position) (source : String) :
    expand other chain name position source = expand registry chain name position source := by
  induction chain using registry.chain_induction generalizing name position source with
  | step chain ih =>
    rw [expand_eq, expand_eq, agree name among]
    cases found : registry.find? name with
    | none => rfl
    | some content =>
      dsimp only
      split
      next => rfl
      next fresh =>
        have same : parse other (chain ++ [name]) name (Lexer.ofSource name content) =
            parse registry (chain ++ [name]) name (Lexer.ofSource name content) :=
          Draft.complete_congr _ _ fun token member tag names =>
            ih name content found fresh
              (closed name tag.1 among ⟨content, found, tag.2, List.mem_filterMap.mpr ⟨token, member, names⟩⟩) _ _
        rw [same]

theorem parse_agree (closed : ∀ outer inner, Among outer → Leads registry outer inner → Among inner)
    (agree : ∀ name, Among name → other.find? name = registry.find? name) {source content : String}
    (mentioned : ∀ name, Mentions source content name → Among name) (chain : List String) :
    parse other chain source (Lexer.ofSource source content) = parse registry chain source (Lexer.ofSource source content) :=
  Draft.complete_congr _ _ fun token member tag names =>
    expand_agree closed agree (mentioned tag.1 ⟨tag.2, List.mem_filterMap.mpr ⟨token, member, names⟩⟩) _ _ _

end

namespace InclusionTrails
variable {registry : Registry} {chain : List String} {source content name : String}

theorem Mentions.reached (mentions : Mentions source content name) : Reached registry source content name :=
  ⟨name, mentions, .refl⟩

theorem Reached.leads {inner : String} (reached : Reached registry source content name) (leads : Leads registry name inner) :
    Reached registry source content inner := by
  obtain ⟨first, mentions, trail⟩ := reached
  exact ⟨first, mentions, trail.tail leads⟩

/-- Names that are among some are so from the source on: those it mentions are, and with each those it leads to. -/
theorem Reached.among (Among : String → Prop) (closed : ∀ outer inner, Among outer → Leads registry outer inner → Among inner)
    (mentioned : ∀ name, Mentions source content name → Among name) (reached : Reached registry source content name) :
    Among name := by
  obtain ⟨first, mentions, trail⟩ := reached
  induction trail with
  | refl => exact mentioned first mentions
  | tail _ leads ih => exact closed _ _ ih leads

theorem Mentions.expanded {tree : Node} (mentions : Mentions source content name)
    (parsed : (parse registry chain source (Lexer.ofSource source content)).1.result = .ok tree) :
    ∃ position tree, (expand registry chain name position source).result = .ok tree := by
  obtain ⟨position, listed⟩ := mentions
  obtain ⟨token, member, names⟩ := List.mem_filterMap.mp listed
  obtain ⟨_, _, _, taken⟩ := parse_ok.mp parsed
  exact ⟨position, Draft.included_of_acceptAll taken token member _ names⟩

/-- Where there is a tree, all that can be reached was expanded on the way to it. -/
theorem complete_of_parse {tree : Node}
    (parsed : (parse registry chain source (Lexer.ofSource source content)).1.result = .ok tree) :
    Complete registry source content := by
  intro name reached
  have expanded : ∃ chain position outer tree, (expand registry chain name position outer).result = .ok tree := by
    refine reached.among (fun name => ∃ chain position outer tree,
      (expand registry chain name position outer).result = .ok tree) ?_ ?_
    · intro outer inner ⟨chain, _, _, _, expanded⟩ ⟨held, registered, mentions⟩
      obtain ⟨found, same, _, parsed⟩ := expand_ok_iff.mp expanded
      cases registered.symm.trans same
      obtain ⟨position, tree, included⟩ := mentions.expanded parsed
      exact ⟨_, position, _, tree, included⟩
    · intro name mentions
      obtain ⟨position, tree, included⟩ := mentions.expanded parsed
      exact ⟨chain, position, source, tree, included⟩
  obtain ⟨_, _, _, _, expanded⟩ := expanded
  obtain ⟨inner, registered, _⟩ := expand_ok_iff.mp expanded
  exact ⟨inner, registered⟩

theorem parse_of_reached {other : Registry}
    (agree : ∀ name, Reached registry source content name → other.find? name = registry.find? name) (chain : List String) :
    parse other chain source (Lexer.ofSource source content) = parse registry chain source (Lexer.ofSource source content) :=
  parse_agree (fun _ _ reached leads => reached.leads leads) agree (fun _ mentions => mentions.reached) chain

end InclusionTrails

theorem Template.root_compile (content : String) (partials : Registry) (globals : Value) :
    (compile content partials globals).result.map root =
      (parse partials [] rootName (Lexer.ofSource rootName content)).1.result := by
  rw [compile, Compilation.result_bind, parseSource]
  cases (parse partials [] rootName (Lexer.ofSource rootName content)).1.result <;> rfl

/-- Registries that agree on the names that can be reached from a source make the same of it: the same tree or the same failure,
and the same of the source left and of the partials expanded. So a partial that cannot be reached may come, go and be broken; and
partials more than there were do not change a tree. -/
theorem only_reached_matters (registry : Registry) (source content : String) (globals : Value) :
    (∀ other, (∀ name, Reached registry source content name → other.find? name = registry.find? name) →
      ∀ chain, parse other chain source (Lexer.ofSource source content) =
        parse registry chain source (Lexer.ofSource source content)) ∧
    (∀ name, ¬ Reached registry rootName content name → ∀ changed,
      (changed = registry.without name ∨ ∃ inner, changed = registry.put name inner) →
        (Template.compile content changed globals).result.map Template.root =
          (Template.compile content registry globals).result.map Template.root) ∧
    ∀ wider : Registry, (∀ name inner, registry.find? name = some inner → wider.find? name = some inner) →
      ∀ template, (Template.compile content registry globals).result = .ok template →
        (Template.compile content wider globals).result = .ok { template with partials := wider } := by
  refine ⟨fun other agree chain => parse_of_reached agree chain, ?_, ?_⟩
  · intro name unreached changed change
    rw [Template.root_compile, Template.root_compile, parse_of_reached fun other reached => ?_]
    have apart : other ≠ name := fun same => unreached (same ▸ reached)
    obtain rfl | ⟨inner, rfl⟩ := change
    · exact Registry.find_without_other apart
    · exact Registry.find_put_other inner apart
  · intro wider keeps template compiled
    obtain ⟨children, parsed, rfl⟩ := Template.compile_ok_iff.mp compiled
    refine Template.compile_ok_iff.mpr ⟨children, ?_, rfl⟩
    rw [parse_of_reached fun name reached => ?_, parsed]
    obtain ⟨inner, registered⟩ := complete_of_parse parsed name reached
    rw [keeps name inner registered, registered]

def asking : String := "\x7b> c\x7d"

/-- A partial that is asked for, and one that could not be read. -/
def stale : Registry := ⟨[("c", "y"), ("d", "\x7b%")]⟩

private theorem asking_tokens : tokensFrom (.into rootName asking 0) =
    ([⟨some ⟨1, 0⟩, .inclusion "c"⟩], none, ⟨.into rootName asking 5, none⟩) := by
  have first : Token.read? (.into rootName asking 0) = .ok (some ⟨some ⟨1, 0⟩, .inclusion "c"⟩) (.into rootName asking 5) := by cbv
  have ended : Token.read? (.into rootName asking 5) = .ok none (.into rootName asking 5) := by cbv
  rw [tokensFrom_token first, tokensFrom_done ended]

private theorem asked_tokens : tokensFrom (.into "c" "y" 0) = ([⟨some ⟨1, 0⟩, .text "y"⟩], none, ⟨.into "c" "y" 1, none⟩) := by
  have first : Token.read? (.into "c" "y" 0) = .ok (some ⟨some ⟨1, 0⟩, .text "y"⟩) (.into "c" "y" 1) := by cbv
  have ended : Token.read? (.into "c" "y" 1) = .ok none (.into "c" "y" 1) := by cbv
  rw [tokensFrom_token first, tokensFrom_done ended]

private theorem asked_only {name : String} (reached : Reached stale rootName asking name) : name = "c" := by
  refine reached.among (· = "c") ?_ ?_
  · intro outer inner same ⟨content, registered, position, listed⟩
    subst same
    cases registered
    obtain ⟨token, member, names⟩ := List.mem_filterMap.mp listed
    have tokens : tokensFrom (.ofSource "c" "y") = _ := asked_tokens
    rw [tokens] at member
    cases List.mem_singleton.mp member
    cases names
  · intro name ⟨position, listed⟩
    obtain ⟨token, member, names⟩ := List.mem_filterMap.mp listed
    have tokens : tokensFrom (.ofSource rootName asking) = _ := asking_tokens
    rw [tokens] at member
    cases List.mem_singleton.mp member
    cases names
    rfl

private theorem asking_parsed : (parse stale [] rootName (Lexer.ofSource rootName asking)).1.result =
    .ok (.block [.block [.text "y"]]) := by
  have given : (expand stale [] "c" (some ⟨1, 0⟩) rootName).result = .ok (.block [.text "y"]) :=
    expand_ok_iff.mpr ⟨"y", rfl, List.not_mem_nil, parse_of_tokens asked_tokens rfl⟩
  exact parse_of_tokens asking_tokens (Draft.acceptAll_cons_ok.mpr ⟨_, .inclusion given, rfl⟩)

/-- The partial that could not be read may be mended or taken out, and another may come. -/
theorem only_reached_matters_stale :
    ((∀ name, Reached stale rootName asking name → (stale.put "d" "z").find? name = stale.find? name) ∧
      parse (stale.put "d" "z") ["b"] rootName (Lexer.ofSource rootName asking) =
        parse stale ["b"] rootName (Lexer.ofSource rootName asking)) ∧
    (¬ Reached stale rootName asking "d" ∧ (Template.compile asking (stale.without "d") (.dict [])).result.map Template.root =
      .ok (.block [.block [.text "y"]])) ∧
    (Template.compile asking ⟨stale.entries ++ [("e", asking)]⟩ (.dict [])).result =
      .ok ⟨.block [.block [.text "y"]], ⟨stale.entries ++ [("e", asking)]⟩, .dict []⟩ := by
  obtain ⟨agree, changes, wider⟩ := only_reached_matters stale rootName asking (.dict [])
  have unreached : ¬ Reached stale rootName asking "d" := fun reached => absurd (asked_only reached) (by decide)
  have compiled : (Template.compile asking stale (.dict [])).result = .ok ⟨.block [.block [.text "y"]], stale, .dict []⟩ :=
    Template.compile_ok_iff.mpr ⟨_, asking_parsed, rfl⟩
  refine ⟨?_, ⟨unreached, ?_⟩, ?_⟩
  · have same : ∀ name, Reached stale rootName asking name → (stale.put "d" "z").find? name = stale.find? name :=
      fun name reached => by
        cases asked_only reached
        rfl
    exact ⟨same, agree _ same ["b"]⟩
  · rw [changes "d" unreached _ (.inl rfl), compiled]
    rfl
  · refine wider ⟨stale.entries ++ [("e", asking)]⟩ ?_ _ compiled
    intro name inner registered
    rw [Registry.find?] at registered ⊢
    rw [List.lookup_append, registered]
    rfl

end Stencil
