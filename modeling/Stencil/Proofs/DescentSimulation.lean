import Mathlib
import Stencil.Descent
import Stencil.Proofs.EagerReading
import Stencil.Proofs.ReadingFaults

/-! A descent beside a draft. The blocks that are open in a draft are the calls that a descent is in, and the nodes of each
are what stands on the stack above its mark. So both make the same of the same tokens, whatever lies below the first mark. -/

namespace Stencil

namespace Compilation
variable {α β σ : Type}

/-- Goes on with the result, or leaves the rest as it is. -/
def proceed (outcome : Compilation α) (rest : σ) (next : α → Compilation β × σ) : Compilation β × σ :=
  match outcome.result with
  | .error failure => (⟨outcome.expansions, .error failure⟩, rest)
  | .ok value => (⟨outcome.expansions ++ (next value).1.expansions, (next value).1.result⟩, (next value).2)

theorem proceed_map {γ : Type} (outcome : Compilation α) (turn : α → γ) (rest : σ) (next : γ → Compilation β × σ) :
    (do return turn (← outcome) : Compilation γ).proceed rest next = outcome.proceed rest fun value => next (turn value) := by
  obtain ⟨expansions, result⟩ := outcome
  cases result with
  | error failure => rfl
  | ok value =>
    change ((⟨expansions ++ [] ++ _, _⟩, _) : Compilation β × σ) = (⟨expansions ++ _, _⟩, _)
    rw [List.append_nil]

end Compilation

def Opening.endings : Opening → List Ending
  | .consequence _ => [.otherwise, .close]
  | .loop _ _ | .alternative _ _ => [.close]

/-- What a draft goes on with when the part that is being filled has come to this. -/
def Enclosure.ended (enclosure : Enclosure) (outer : List Enclosure) (body : Node) (ending : Ending) : Draft :=
  match enclosure.opening, ending with
  | .consequence condition, .otherwise => ⟨[], ⟨.alternative condition body, enclosure.position, enclosure.siblings⟩ :: outer⟩
  | opening, _ => ⟨opening.close enclosure.position body :: enclosure.siblings, outer⟩

namespace Draft
variable {σ : Type} [TokenStream σ] {inclusion : Inclusion} {source : String} {stream rest : σ} {token : Token}

theorem complete_fault (draft : Draft) {diagnostic : Diagnostic} (taken : TokenStream.next stream = .error diagnostic rest) :
    draft.complete inclusion source stream = (.ofExcept (.error (.diagnosed diagnostic)), rest) := by
  rw [complete]
  split <;> simp_all

theorem complete_token (draft : Draft) (taken : TokenStream.next stream = .ok (some token) rest) :
    draft.complete inclusion source stream =
      (draft.accept inclusion source token).proceed rest fun next => next.complete inclusion source rest := by
  rw [Compilation.proceed]
  cases accepted : (draft.accept inclusion source token).result with
  | error failure => exact complete_refused taken accepted
  | ok next => exact complete_taken taken accepted

variable {ending : Ending} {nodes : List Node}

theorem accept_ending_outside (ends : token.ending? = some ending) : (⟨nodes, []⟩ : Draft).accept inclusion source token =
    .diagnose (.unbalanced (.outside ending.keyword)) token.position source := by
  obtain ⟨position, form⟩ := token
  cases form <;> cases ends <;> rfl

theorem accept_ending {enclosure : Enclosure} {outer : List Enclosure} (ends : token.ending? = some ending) :
    (⟨nodes, enclosure :: outer⟩ : Draft).accept inclusion source token =
      if ending ∈ enclosure.opening.endings then pure (enclosure.ended outer (.block nodes.reverse) ending)
      else .diagnose (.unbalanced (.inside ending.keyword enclosure.opening.keyword
        (enclosure.opening.endings.map Ending.keyword))) token.position source := by
  obtain ⟨position, form⟩ := token
  obtain ⟨opening, start, siblings⟩ := enclosure
  cases form <;> cases ends <;> cases opening <;> rfl

end Draft

namespace Descent
open Draft TokenStream
variable {σ : Type} [TokenStream σ]

namespace Step
variable {α β γ : Type} {bound : Nat} {first : Step σ bound α} {stack stack' : List Node}
  {next : α → (after : Descent σ) → size after.stream ≤ bound → Step σ bound β}

/-- If the step comes to something, it leaves this stack. -/
def Leaves (stack : List Node) (step : Step σ bound α) : Prop :=
  ∀ value, step.outcome.result = .ok value → step.after.stack = stack

theorem bind_done (value : α) (after : Descent σ) (within : size after.stream ≤ bound) :
    (Step.done value after within).bind next = next value after within := rfl

theorem leaves_fail (failure : CompileFailure) (after : Descent σ) :
    Leaves stack (.fail failure after : Step σ bound α) := nofun

theorem Leaves.weaken {less : Nat} {step : Step σ less α} (leaves : step.Leaves stack) (within : less ≤ bound) :
    (step.weaken within).Leaves stack := leaves

theorem Leaves.bind (former : first.Leaves stack)
    (later : ∀ value after within, after.stack = stack → (next value after within).Leaves stack') :
    (first.bind next).Leaves stack' := by
  unfold Step.bind
  split
  next => exact nofun
  next value made => exact later value first.after _ (former value made)

def proceed (step : Step σ bound α) (next : α → Descent σ → Compilation γ × σ) : Compilation γ × σ :=
  step.outcome.proceed step.after.stream fun value => next value step.after

theorem proceed_weaken {less : Nat} (step : Step σ less α) (within : less ≤ bound)
    (next : α → Descent σ → Compilation γ × σ) : (step.weaken within).proceed next = step.proceed next := rfl

theorem proceed_bind (former : first.Leaves stack) {last : β → Descent σ → Compilation γ × σ}
    {further : α → Descent σ → Compilation γ × σ}
    (same : ∀ value after within, after.stack = stack → (next value after within).proceed last = further value after) :
    (first.bind next).proceed last = first.proceed further := by
  unfold Step.bind
  split
  next failure failed => simp only [proceed, Compilation.proceed, failed]
  next value made =>
    have agree := same value first.after (first.shorter value made) (former value made)
    simp only [proceed, Compilation.proceed, made] at agree ⊢
    rw [← agree]
    cases (next value first.after (first.shorter value made)).outcome.result with
    | error failure => rfl
    | ok value' => simp only [List.append_assoc]

end Step

variable {inclusion : Inclusion} {source construct : String} {opened token : Token} {endings : List Ending} {mark : Nat}
  {descent : Descent σ} {stream : σ}

theorem collect_fault {diagnostic : Diagnostic} (taken : next descent.stream = .error diagnostic stream) :
    collect inclusion source opened construct endings mark descent = .fail (.diagnosed diagnostic) { descent with stream } := by
  rw [collect]
  split <;> simp_all

theorem collect_done (taken : next descent.stream = .ok none stream) :
    collect inclusion source opened construct endings mark descent =
      .fail (.diagnosed ⟨.unterminated construct, opened.position, source⟩) { descent with stream } := by
  rw [collect]
  split <;> simp_all

theorem collect_some (taken : next descent.stream = .ok (some token) stream) :
    collect inclusion source opened construct endings mark descent =
      match token.ending? with
      | some ending =>
        if ending ∈ endings then
          .done (.block (descent.stack.drop mark), ending) ⟨stream, descent.stack.take mark⟩ (Nat.le_of_lt (next_smaller taken))
        else
          .fail (.diagnosed ⟨.unbalanced (.inside ending.keyword construct (endings.map Ending.keyword)), token.position, source⟩)
            { descent with stream }
      | none =>
        ((node inclusion source token { descent with stream }).bind fun child after within =>
          (collect inclusion source opened construct endings mark (after.push child)).weaken within).weaken
            (Nat.le_of_lt (next_smaller taken)) := by
  rw [collect]
  split
  next taken' => cases taken.symm.trans taken'
  next taken' => cases taken.symm.trans taken'
  next taken' =>
    cases taken.symm.trans taken'
    rfl

/-- What comes next: a fault, the end, a tag that ends a block, or a token that a node begins with. -/
inductive Arrival (descent : Descent σ) : Prop
  | fault {diagnostic : Diagnostic} {stream : σ} (taken : next descent.stream = .error diagnostic stream)
  | done {stream : σ} (taken : next descent.stream = .ok none stream)
  | ending {token : Token} {ending : Ending} {stream : σ} (taken : next descent.stream = .ok (some token) stream)
      (ends : token.ending? = some ending)
  | token {token : Token} {stream : σ} (taken : next descent.stream = .ok (some token) stream) (inside : token.ending? = none)
      (smaller : size stream < size descent.stream)

theorem arrival (descent : Descent σ) : Arrival descent := by
  cases taken : next descent.stream with
  | error diagnostic stream => exact .fault taken
  | ok found stream =>
    cases found with
    | none => exact .done taken
    | some token =>
      cases ends : token.ending? with
      | some ending => exact .ending taken ends
      | none => exact .token taken ends (next_smaller taken)

/-- A node on top of a stack that is higher than the mark. -/
theorem stack_push {τ : Type} {stack : List Node} {after : Descent τ} (height : after.stack = stack) (low : mark ≤ stack.length)
    (child : Node) : mark ≤ (after.push child).stack.length ∧ (after.push child).stack.take mark = stack.take mark ∧
      (after.push child).stack.drop mark = stack.drop mark ++ [child] := by
  subst height
  refine ⟨?_, List.take_append_of_le_length low, List.drop_append_of_le_length low⟩
  rw [List.length_append]
  omega

mutual
/-- Nodes that wait are left where they are. -/
theorem leaves_node (inclusion : Inclusion) (source : String) (token : Token) (descent : Descent σ) :
    (node inclusion source token descent).Leaves descent.stack := by
  obtain ⟨position, form⟩ := token
  rw [node]
  cases form with
  | text content => exact fun _ _ => rfl
  | «variable» path => exact fun _ _ => rfl
  | inclusion name => exact fun _ _ => rfl
  | loop iterable binding =>
    apply (leaves_collect _ _ _ _ _ descent (Nat.le_refl _)).bind
    intro (body, _) after within height
    rw [List.take_length] at height
    exact fun _ _ => height
  | choice pieces =>
    dsimp only
    cases Condition.ofPieces ⟨position, source⟩ pieces with
    | error failure => exact Step.leaves_fail _ _
    | ok condition =>
      apply (leaves_collect _ _ _ _ _ descent (Nat.le_refl _)).bind
      intro (consequence, ending) after within height
      rw [List.take_length] at height
      cases ending with
      | close => exact fun _ _ => height
      | otherwise =>
        dsimp only
        apply ((leaves_collect _ _ _ _ _ after (Nat.le_refl _)).weaken within).bind
        intro (alternative, _) last within' height'
        rw [List.take_length] at height'
        exact fun _ _ => height'.trans height
  | otherwise => exact Step.leaves_fail _ _
  | close => exact Step.leaves_fail _ _
  | bare => exact Step.leaves_fail _ _
termination_by 2 * size descent.stream + 1

/-- A block takes away what stands above its mark, and no more. -/
theorem leaves_collect (inclusion : Inclusion) (source : String) (opened : Token) (construct : String)
    (endings : List Ending) (descent : Descent σ) {mark : Nat} (low : mark ≤ descent.stack.length) :
    (collect inclusion source opened construct endings mark descent).Leaves (descent.stack.take mark) := by
  cases descent.arrival with
  | fault taken =>
    rw [collect_fault taken]
    exact Step.leaves_fail _ _
  | done taken =>
    rw [collect_done taken]
    exact Step.leaves_fail _ _
  | ending taken ends =>
    rw [collect_some taken, ends]
    dsimp only
    split
    · exact fun _ _ => rfl
    · exact Step.leaves_fail _ _
  | @token token stream taken inside smaller =>
    rw [collect_some taken, inside]
    apply (leaves_node _ _ token { descent with stream }).bind
    intro child after within height
    have shorter : size after.stream < size descent.stream := Nat.lt_of_le_of_lt within smaller
    obtain ⟨low', below, _⟩ := stack_push height low child
    rw [← below]
    exact (leaves_collect _ _ opened construct endings (after.push child) low').weaken within
termination_by 2 * size descent.stream
end

mutual
/-- What a draft makes of the token and of all that comes behind it, it makes of the node. -/
theorem simulates_node (inclusion : Inclusion) (source : String) (draft : Draft) {token : Token}
    (within : token.ending? = none) (descent : Descent σ) :
    ((draft.accept inclusion source token).proceed descent.stream fun next =>
      next.complete inclusion source descent.stream) =
    (node inclusion source token descent).proceed fun child after =>
      (draft.push child).complete inclusion source after.stream := by
  obtain ⟨position, form⟩ := token
  rw [node]
  cases form with
  | text content => rfl
  | «variable» path => rfl
  | inclusion name => exact Compilation.proceed_map _ _ _ _
  | loop iterable binding =>
    have filled := simulates_collect inclusion source ⟨.loop iterable binding, position, draft.nodes⟩ draft.enclosures
      ⟨position, .loop iterable binding⟩ rfl descent (Nat.le_refl _)
    rw [List.drop_length] at filled
    refine filled.trans (Step.proceed_bind (leaves_collect _ _ _ _ _ descent (Nat.le_refl _)) ?_).symm
    rintro ⟨body, ending⟩ after _ _
    cases ending <;> rfl
  | choice pieces =>
    dsimp only [accept]
    cases sound : Condition.ofPieces ⟨position, source⟩ pieces with
    | error failure => rfl
    | ok condition =>
      have filled := simulates_collect inclusion source ⟨.consequence condition, position, draft.nodes⟩ draft.enclosures
        ⟨position, .choice pieces⟩ rfl descent (Nat.le_refl _)
      rw [List.drop_length] at filled
      refine filled.trans (Step.proceed_bind (leaves_collect _ _ _ _ _ descent (Nat.le_refl _)) ?_).symm
      rintro ⟨consequence, ending⟩ after within height
      cases ending with
      | close => rfl
      | otherwise =>
        have filled' := simulates_collect inclusion source ⟨.alternative condition consequence, position, draft.nodes⟩
          draft.enclosures ⟨position, .choice pieces⟩ rfl after (Nat.le_refl _)
        rw [List.drop_length] at filled'
        refine (Step.proceed_bind ((leaves_collect _ _ _ _ _ after (Nat.le_refl _)).weaken within) ?_).trans
          ((Step.proceed_weaken _ within _).trans filled'.symm)
        rintro ⟨alternative, ending⟩ last _ _
        cases ending <;> rfl
  | otherwise => cases within
  | close => cases within
  | bare => rfl
termination_by 2 * size descent.stream + 1

theorem simulates_collect (inclusion : Inclusion) (source : String) (enclosure : Enclosure) (outer : List Enclosure)
    (opened : Token) (place : enclosure.position = opened.position) (descent : Descent σ) {mark : Nat}
    (low : mark ≤ descent.stack.length) :
    (⟨(descent.stack.drop mark).reverse, enclosure :: outer⟩ : Draft).complete inclusion source descent.stream =
    (collect inclusion source opened enclosure.opening.keyword enclosure.opening.endings mark descent).proceed
      fun part after => (enclosure.ended outer part.1 part.2).complete inclusion source after.stream := by
  cases descent.arrival with
  | fault taken =>
    rw [collect_fault taken, complete_fault _ taken]
    rfl
  | done taken =>
    rw [collect_done taken, complete_done _ taken]
    simp only [finish, place]
    rfl
  | ending taken ends =>
    rw [complete_token _ taken, accept_ending ends, List.reverse_reverse, collect_some taken, ends]
    dsimp only
    split <;> rfl
  | @token token stream taken inside smaller =>
    rw [complete_token _ taken, collect_some taken, inside]
    dsimp only
    rw [Step.proceed_weaken]
    refine (simulates_node _ _ _ inside { descent with stream }).trans ?_
    refine (Step.proceed_bind (leaves_node _ _ token { descent with stream }) ?_).symm
    intro child after within height
    have shorter : size after.stream < size descent.stream := Nat.lt_of_le_of_lt within smaller
    obtain ⟨low', _, above⟩ := stack_push height low child
    have further := simulates_collect inclusion source enclosure outer opened place (after.push child) low'
    rw [above, List.reverse_append] at further
    exact further.symm
termination_by 2 * size descent.stream
end

variable {children : List Node}

theorem blocks_fault {diagnostic : Diagnostic} (taken : next descent.stream = .error diagnostic stream) :
    blocks inclusion source children descent = (.ofExcept (.error (.diagnosed diagnostic)), { descent with stream }) := by
  rw [← upcoming_eq] at taken
  rw [blocks]
  split <;> simp_all

theorem blocks_done (taken : next descent.stream = .ok none stream) :
    blocks inclusion source children descent = (pure (.block children), { descent with stream }) := by
  rw [← upcoming_eq] at taken
  rw [blocks]
  split <;> simp_all

theorem blocks_some (taken : next descent.stream = .ok (some token) stream) :
    blocks inclusion source children descent =
      match token.ending? with
      | some ending => (.diagnose (.unbalanced (.outside ending.keyword)) token.position source, { descent with stream })
      | none =>
        (node inclusion source token { descent with stream }).outcome.proceed
          (node inclusion source token { descent with stream }).after fun child =>
            blocks inclusion source (children ++ [child]) (node inclusion source token { descent with stream }).after := by
  rw [← upcoming_eq] at taken
  rw [blocks]
  split
  next taken' => cases taken.symm.trans taken'
  next taken' => cases taken.symm.trans taken'
  next taken' =>
    cases taken.symm.trans taken'
    cases token.ending? with
    | some ending => rfl
    | none =>
      generalize node inclusion source token { descent with stream } = step
      rw [Compilation.proceed]
      dsimp only
      split <;> simp_all

theorem blocks_text {position : Option Position} {content : String}
    (taken : next descent.stream = .ok (some ⟨position, .text content⟩) stream) :
    blocks inclusion source children descent =
      blocks inclusion source (children ++ [.text content]) { descent with stream } := by
  have opens : node inclusion source ⟨position, .text content⟩ { descent with stream } =
      .done (.text content) { descent with stream } (Nat.le_refl _) := by
    rw [node]
  rw [blocks_some taken]
  dsimp only [Token.ending?]
  rw [opens]
  rfl

theorem leaves_blocks (inclusion : Inclusion) (source : String) (children : List Node) (descent : Descent σ) {tree : Node}
    (made : (blocks inclusion source children descent).1.result = .ok tree) :
    (blocks inclusion source children descent).2.stack = descent.stack ∧
      ∃ last, next last = .ok none (blocks inclusion source children descent).2.stream := by
  revert made
  cases descent.arrival with
  | fault taken =>
    rw [blocks_fault taken]
    exact nofun
  | done taken =>
    rw [blocks_done taken]
    exact fun _ => ⟨rfl, descent.stream, taken⟩
  | ending taken ends =>
    rw [blocks_some taken, ends]
    exact nofun
  | @token token stream taken inside smaller =>
    have leaves := leaves_node inclusion source token { descent with stream }
    rw [blocks_some taken, inside]
    generalize node inclusion source token { descent with stream } = step at leaves
    dsimp only
    rw [Compilation.proceed]
    cases done : step.outcome.result with
    | error failure => exact nofun
    | ok child =>
      intro made
      have shorter : size step.after.stream < size descent.stream := Nat.lt_of_le_of_lt (step.shorter child done) smaller
      obtain ⟨height, ended⟩ := leaves_blocks inclusion source (children ++ [child]) step.after made
      exact ⟨height.trans (leaves child done), ended⟩
termination_by size descent.stream

/-- What a draft without open blocks makes of all that is to come, the blocks make of it. -/
theorem simulates_blocks (inclusion : Inclusion) (source : String) (children : List Node) (descent : Descent σ) :
    (⟨children.reverse, []⟩ : Draft).complete inclusion source descent.stream =
      ((blocks inclusion source children descent).1, (blocks inclusion source children descent).2.stream) := by
  cases descent.arrival with
  | fault taken => rw [blocks_fault taken, complete_fault _ taken]
  | done taken =>
    rw [blocks_done taken, complete_done _ taken]
    simp only [finish, body, List.reverse_reverse]
  | ending taken ends =>
    rw [blocks_some taken, ends, complete_token _ taken, accept_ending_outside ends]
    rfl
  | @token token stream taken inside smaller =>
    have simulates := simulates_node inclusion source ⟨children.reverse, []⟩ inside { descent with stream }
    rw [blocks_some taken, inside, complete_token _ taken]
    refine simulates.trans ?_
    generalize node inclusion source token { descent with stream } = step
    dsimp only
    rw [Step.proceed, Compilation.proceed, Compilation.proceed]
    cases made : step.outcome.result with
    | error failure => rfl
    | ok child =>
      have shorter : size step.after.stream < size descent.stream := Nat.lt_of_le_of_lt (step.shorter child made) smaller
      have further := simulates_blocks inclusion source (children ++ [child]) step.after
      rw [List.reverse_append] at further
      have same : (Draft.push ⟨children.reverse, []⟩ child).complete inclusion source step.after.stream = _ := further
      simp only [same]
termination_by size descent.stream

end Descent

namespace Parser

/-- A parser of its own makes of a partial what a draft of its own makes of it. -/
theorem including_eq (registry : Registry) (chain : List String) : including registry chain = expand registry chain := by
  funext name position source
  rw [including, expand_eq]
  split
  next missing => simp only [missing]
  next content found =>
    simp only [found]
    by_cases used : name ∈ chain
    · rw [dif_pos used, if_pos used]
    · have shorter := Registry.unused_shorter (Registry.mem_names_of_find found) used
      have made := congrArg Prod.fst (Descent.simulates_blocks (including registry (chain ++ [name])) name []
        (ofSource registry (chain ++ [name]) name content).toDescent)
      rw [dif_neg used, if_neg used, Stencil.parse, ← including_eq registry (chain ++ [name])]
      exact congrArg _ (funext fun _ => made.symm)
termination_by (registry.unused chain).length

/-- What a parser makes depends on what its stream still holds and not on its stack. -/
theorem parse_eq {σ : Type} [TokenStream σ] (parser : Parser σ) : (parser.parse.1, parser.parse.2.stream) =
    Stencil.parse parser.registry parser.chain parser.source parser.stream := by
  rw [Stencil.parse, ← including_eq]
  exact (Descent.simulates_blocks _ _ [] parser.toDescent).symm

end Parser
end Stencil
