import Stencil.Template

/-! Parsing as a run over a list. Whatever supplies the tokens, those that it delivers before the end or the first fault
go into the draft one after another; then the tree is finished or the fault is what comes of it. A template holds the tree
of its source. -/

namespace Stencil

namespace TokenStream
variable {σ : Type} [TokenStream σ] {stream rest : σ}

theorem drain_fault {diagnostic : Diagnostic} (taken : next stream = .error diagnostic rest) :
    drain stream = ([], some diagnostic, rest) := by
  rw [drain]
  split <;> simp_all

theorem drain_done (taken : next stream = .ok none rest) : drain stream = ([], none, rest) := by
  rw [drain]
  split <;> simp_all

theorem drain_token {token : Token} (taken : next stream = .ok (some token) rest) :
    drain stream = (token :: (drain rest).1, (drain rest).2) := by
  rw [drain]
  split <;> simp_all

@[simp] theorem drain_list (tokens : List Token) : drain tokens = (tokens, none, []) := by
  induction tokens with
  | nil => exact drain_done rfl
  | cons token tokens ih =>
    have taken : next (token :: tokens) = .ok (some token) tokens := rfl
    rw [drain_token taken, ih]

end TokenStream

section
variable {ε α β : Type} {first : Except ε α} {next : α → Except ε β}

theorem bind_ok_iff {value : β} : first >>= next = .ok value ↔ ∃ middle, first = .ok middle ∧ next middle = .ok value := by
  cases first <;> simp [bind, Except.bind]

theorem bind_error_iff {failure : ε} : first >>= next = .error failure ↔
    first = .error failure ∨ ∃ middle, first = .ok middle ∧ next middle = .error failure := by
  cases first <;> simp [bind, Except.bind]

end

namespace Draft
variable {inclusion : Inclusion} {source : String}

/-- How a draft takes a token, in all ways that do not fail. -/
inductive Takes (inclusion : Inclusion) (source : String) : Draft → Token → Draft → Prop
  | text {draft : Draft} (position : Option Position) (content : String) :
      Takes inclusion source draft ⟨position, .text content⟩ (draft.push (.text content))
  | variable {draft : Draft} (position : Option Position) (path : String) :
      Takes inclusion source draft ⟨position, .variable path⟩ (draft.push (.variable path))
  | inclusion {draft : Draft} {position : Option Position} {name : String} {tree : Node}
      (included : (inclusion name position source).result = .ok tree) :
      Takes inclusion source draft ⟨position, .inclusion name⟩ (draft.push tree)
  | loop {draft : Draft} (position : Option Position) (iterable binding : String) :
      Takes inclusion source draft ⟨position, .loop iterable binding⟩ (draft.enter (.loop iterable binding) position)
  | choice {draft : Draft} {position : Option Position} {pieces : List Expression.Piece} {condition : Node}
      (sound : Condition.ofPieces ⟨position, source⟩ pieces = .ok condition) :
      Takes inclusion source draft ⟨position, .choice pieces⟩ (draft.enter (.consequence condition) position)
  | otherwise (nodes siblings : List Node) (condition : Node) (start position : Option Position)
      (outer : List Enclosure) :
      Takes inclusion source ⟨nodes, ⟨.consequence condition, start, siblings⟩ :: outer⟩ ⟨position, .otherwise⟩
        ⟨[], ⟨.alternative condition (.block nodes.reverse), start, siblings⟩ :: outer⟩
  | close (nodes siblings : List Node) (opening : Opening) (start position : Option Position)
      (outer : List Enclosure) :
      Takes inclusion source ⟨nodes, ⟨opening, start, siblings⟩ :: outer⟩ ⟨position, .close⟩
        ⟨opening.close start (.block nodes.reverse) :: siblings, outer⟩

theorem accept_ok_iff {draft next : Draft} {token : Token} :
    (draft.accept inclusion source token).result = .ok next ↔ Takes inclusion source draft token next := by
  constructor
  · intro accepted
    obtain ⟨position, form⟩ := token
    cases form with
    | text content => cases accepted; exact .text position content
    | «variable» path => cases accepted; exact .variable position path
    | loop iterable binding => cases accepted; exact .loop position iterable binding
    | inclusion name =>
      simp only [accept, Compilation.result_bind, bind_ok_iff] at accepted
      obtain ⟨tree, included, pushed⟩ := accepted
      cases pushed
      exact .inclusion included
    | choice pieces =>
      simp only [accept, Compilation.result_bind, Compilation.result_ofExcept, bind_ok_iff] at accepted
      obtain ⟨condition, sound, entered⟩ := accepted
      cases entered
      exact .choice sound
    | otherwise =>
      obtain ⟨nodes, enclosures⟩ := draft
      rcases enclosures with _ | ⟨⟨opening, start, siblings⟩, outer⟩
      · cases accepted
      · cases opening <;> cases accepted
        exact .otherwise nodes siblings _ start position outer
    | close =>
      obtain ⟨nodes, enclosures⟩ := draft
      rcases enclosures with _ | ⟨⟨opening, start, siblings⟩, outer⟩
      · cases accepted
      · cases accepted
        exact .close nodes siblings opening start position outer
    | bare => cases accepted
  · intro taken
    cases taken with
    | inclusion included =>
      simp only [accept, Compilation.result_bind, included]
      rfl
    | choice sound =>
      simp only [accept, Compilation.result_bind, Compilation.result_ofExcept, sound]
      rfl
    | _ => rfl

/-- How a draft refuses a token. -/
inductive Refuses (inclusion : Inclusion) (source : String) : Draft → Token → CompileFailure → Prop
  | misplaced {draft : Draft} {token : Token} (tag : token.form = .otherwise ∨ token.form = .close)
      (imbalance : Diagnostic.Imbalance) :
      Refuses inclusion source draft token (.diagnosed ⟨.unbalanced imbalance, token.position, some source⟩)
  | inclusion {draft : Draft} {position : Option Position} {name : String} {failure : CompileFailure}
      (failed : (inclusion name position source).result = .error failure) :
      Refuses inclusion source draft ⟨position, .inclusion name⟩ failure
  | choice {draft : Draft} {position : Option Position} {pieces : List Expression.Piece} {failure : CompileFailure}
      (unsound : Condition.ofPieces ⟨position, source⟩ pieces = .error failure) :
      Refuses inclusion source draft ⟨position, .choice pieces⟩ failure
  | bare (draft : Draft) (position : Option Position) :
      Refuses inclusion source draft ⟨position, .bare⟩ (.bareToken position)

theorem refuses_of_accept {draft : Draft} {token : Token} {failure : CompileFailure}
    (refused : (draft.accept inclusion source token).result = .error failure) :
    Refuses inclusion source draft token failure := by
  obtain ⟨position, form⟩ := token
  cases form with
  | choice pieces =>
    simp only [accept, Compilation.result_bind, Compilation.result_ofExcept, bind_error_iff] at refused
    exact .choice (refused.resolve_right (by simp))
  | inclusion name =>
    simp only [accept, Compilation.result_bind, bind_error_iff] at refused
    exact .inclusion (refused.resolve_right (by simp))
  | otherwise =>
    obtain ⟨nodes, enclosures⟩ := draft
    rcases enclosures with _ | ⟨⟨opening, start, siblings⟩, outer⟩
    · cases refused
      exact .misplaced (.inl rfl) _
    · cases opening <;> cases refused <;> exact .misplaced (.inl rfl) _
  | close =>
    obtain ⟨nodes, enclosures⟩ := draft
    rcases enclosures with _ | ⟨⟨opening, start, siblings⟩, outer⟩ <;> cases refused
    exact .misplaced (.inr rfl) _
  | bare =>
    cases refused
    exact .bare draft position
  | _ => cases refused

def acceptAll (inclusion : Inclusion) (source : String) (draft : Draft) : List Token → Except CompileFailure Draft
  | [] => .ok draft
  | token :: tokens => do acceptAll inclusion source (← (draft.accept inclusion source token).result) tokens

/-- What becomes of a draft when no more tokens come, because of a fault or without one. -/
def conclude (source : String) (fault : Option Diagnostic) (draft : Draft) : Except CompileFailure Node :=
  match fault with
  | some diagnostic => .error (.diagnosed diagnostic)
  | none => (draft.finish source).result

theorem acceptAll_cons (draft : Draft) (token : Token) (tokens : List Token) :
    draft.acceptAll inclusion source (token :: tokens) =
      (draft.accept inclusion source token).result >>= fun next => next.acceptAll inclusion source tokens := rfl

theorem acceptAll_append (draft : Draft) (first rest : List Token) :
    draft.acceptAll inclusion source (first ++ rest) =
      draft.acceptAll inclusion source first >>= fun next => next.acceptAll inclusion source rest := by
  induction first generalizing draft with
  | nil => rfl
  | cons token tokens ih =>
    simp only [List.cons_append, acceptAll_cons]
    cases (draft.accept inclusion source token).result with
    | error failure => rfl
    | ok next => exact ih next

theorem acceptAll_cons_ok {draft final : Draft} {token : Token} {tokens : List Token} :
    draft.acceptAll inclusion source (token :: tokens) = .ok final ↔
      ∃ next, Takes inclusion source draft token next ∧ next.acceptAll inclusion source tokens = .ok final := by
  simp only [acceptAll_cons, bind_ok_iff, accept_ok_iff]

theorem acceptAll_append_ok {draft final : Draft} {first rest : List Token} :
    draft.acceptAll inclusion source (first ++ rest) = .ok final ↔
      ∃ middle, draft.acceptAll inclusion source first = .ok middle ∧
        middle.acceptAll inclusion source rest = .ok final := by
  rw [acceptAll_append, bind_ok_iff]

/-- A run fails at one token, and all tokens before it were taken. -/
theorem acceptAll_error {draft : Draft} {tokens : List Token} {failure : CompileFailure} :
    draft.acceptAll inclusion source tokens = .error failure ↔
      ∃ before token after middle, tokens = before ++ token :: after ∧
        draft.acceptAll inclusion source before = .ok middle ∧
        (middle.accept inclusion source token).result = .error failure := by
  constructor
  · intro failed
    induction tokens generalizing draft with
    | nil => cases failed
    | cons token tokens ih =>
      cases taken : (draft.accept inclusion source token).result with
      | error reason =>
        rw [acceptAll_cons, taken] at failed
        cases failed
        exact ⟨[], token, tokens, draft, rfl, rfl, taken⟩
      | ok next =>
        rw [acceptAll_cons, taken] at failed
        obtain ⟨before, culprit, after, middle, rfl, sound, refused⟩ := ih failed
        have through := acceptAll_cons_ok.mpr ⟨next, accept_ok_iff.mp taken, sound⟩
        exact ⟨token :: before, culprit, after, middle, rfl, through, refused⟩
  · intro ⟨before, token, after, middle, same, sound, refused⟩
    subst same
    rw [acceptAll_append, sound]
    exact congrArg (· >>= fun next : Draft => next.acceptAll inclusion source after) refused

/-- Completing a draft from a stream is a run over the tokens that the stream delivers. -/
theorem result_complete {σ : Type} [TokenStream σ] (draft : Draft) (stream : σ) :
    (draft.complete inclusion source stream).1.result =
      draft.acceptAll inclusion source (TokenStream.drain stream).1 >>= conclude source (TokenStream.drain stream).2.1 := by
  fun_induction draft.complete inclusion source stream with
  | case1 draft stream diagnostic rest taken =>
    rw [TokenStream.drain_fault taken]
    rfl
  | case2 draft stream rest taken =>
    rw [TokenStream.drain_done taken]
    rfl
  | case3 draft stream token rest taken accepted failure refused =>
    rw [TokenStream.drain_token taken, acceptAll_cons, refused]
    rfl
  | case4 draft stream token rest taken accepted next kept completed left finished ih =>
    rw [finished] at ih
    rw [TokenStream.drain_token taken, acceptAll_cons, kept]
    exact ih

end Draft

theorem result_parse_list (registry : Registry) (chain : List String) (source : String) (tokens : List Token) :
    (parse registry chain source tokens).1.result =
      Draft.empty.acceptAll (expand registry chain) source tokens >>= fun draft => (draft.finish source).result := by
  rw [parse, Draft.result_complete, TokenStream.drain_list]
  rfl

theorem expand_eq (registry : Registry) (chain : List String) (name : String) (position : Option Position) (source : String) :
    expand registry chain name position source =
      match registry.find? name with
      | none => .diagnose (.unknownPartial name) position source
      | some content =>
        if name ∈ chain then .diagnose (.recursivePartial (chain ++ [name])) position source
        else Compilation.note ⟨name, source⟩ >>= fun _ =>
          (parse registry (chain ++ [name]) name (Lexer.ofSource name content)).1 := by
  rw [expand]
  split
  next absent => simp only [absent]
  next content found =>
    simp only [found]
    rfl

/-- A tag that stands for a partial becomes the tree of the partial's source, parsed with the name added to the chain. -/
theorem result_expand (registry : Registry) (chain : List String) (name : String) (position : Option Position)
    (source : String) : (expand registry chain name position source).result =
      match registry.find? name with
      | none => .error (.diagnosed ⟨.unknownPartial name, position, some source⟩)
      | some content =>
        if name ∈ chain then .error (.diagnosed ⟨.recursivePartial (chain ++ [name]), position, some source⟩)
        else (parse registry (chain ++ [name]) name (Lexer.ofSource name content)).1.result := by
  rw [expand_eq]
  cases registry.find? name with
  | none => rfl
  | some content =>
    dsimp only
    split
    · rfl
    · rw [Compilation.result_bind]
      rfl

theorem expand_ok_iff {registry : Registry} {chain : List String} {name source : String} {position : Option Position}
    {tree : Node} : (expand registry chain name position source).result = .ok tree ↔
      ∃ content, registry.find? name = some content ∧ name ∉ chain ∧
        (parse registry (chain ++ [name]) name (Lexer.ofSource name content)).1.result = .ok tree := by
  rw [result_expand]
  cases registry.find? name with
  | none => simp
  | some content => by_cases used : name ∈ chain <;> simp [used]

/-- A tag cannot be expanded if its name is not registered or is being expanded, or if the source of the partial fails. -/
theorem expand_error_iff {registry : Registry} {chain : List String} {name source : String} {position : Option Position}
    {failure : CompileFailure} : (expand registry chain name position source).result = .error failure ↔
      (registry.find? name = none ∧ failure = .diagnosed ⟨.unknownPartial name, position, some source⟩) ∨
      ∃ content, registry.find? name = some content ∧
        ((name ∈ chain ∧ failure = .diagnosed ⟨.recursivePartial (chain ++ [name]), position, some source⟩) ∨
          (name ∉ chain ∧ (parse registry (chain ++ [name]) name (Lexer.ofSource name content)).1.result = .error failure)) := by
  rw [result_expand]
  cases registry.find? name with
  | none => simp [eq_comm]
  | some content => by_cases used : name ∈ chain <;> simp [used, eq_comm]

theorem block_of_finish {draft : Draft} {source : String} {tree : Node} (finished : (draft.finish source).result = .ok tree) :
    draft.enclosures = [] ∧ tree = .block draft.nodes.reverse := by
  obtain ⟨nodes, enclosures⟩ := draft
  cases enclosures with
  | nil =>
    cases finished
    exact ⟨rfl, rfl⟩
  | cons enclosure outer => cases finished

theorem parse_ok {σ : Type} [TokenStream σ] {registry : Registry} {chain : List String} {source : String} {stream : σ}
    {tree : Node} : (parse registry chain source stream).1.result = .ok tree ↔
      (TokenStream.drain stream).2.1 = none ∧ ∃ nodes, tree = .block nodes.reverse ∧
        Draft.empty.acceptAll (expand registry chain) source (TokenStream.drain stream).1 = .ok ⟨nodes, []⟩ := by
  rw [parse, Draft.result_complete]
  constructor
  · intro parsed
    cases taken : Draft.empty.acceptAll (expand registry chain) source (TokenStream.drain stream).1 with
    | error failure =>
      rw [taken] at parsed
      cases parsed
    | ok draft =>
      rw [taken] at parsed
      cases fault : (TokenStream.drain stream).2.1 with
      | some diagnostic =>
        rw [fault] at parsed
        cases parsed
      | none =>
        rw [fault] at parsed
        obtain ⟨closed, rfl⟩ := block_of_finish parsed
        exact ⟨rfl, draft.nodes, rfl, by rw [← closed]⟩
  · intro ⟨sound, nodes, same, taken⟩
    subst same
    rw [taken, sound]
    rfl

/-- Parsing fails at a token that the draft refuses, or where the tokens run out. -/
theorem parse_error {σ : Type} [TokenStream σ] {registry : Registry} {chain : List String} {source : String} {stream : σ}
    {failure : CompileFailure} : (parse registry chain source stream).1.result = .error failure ↔
      (∃ before token after draft, (TokenStream.drain stream).1 = before ++ token :: after ∧
        Draft.empty.acceptAll (expand registry chain) source before = .ok draft ∧
        (draft.accept (expand registry chain) source token).result = .error failure) ∨
      ∃ draft, Draft.empty.acceptAll (expand registry chain) source (TokenStream.drain stream).1 = .ok draft ∧
        Draft.conclude source (TokenStream.drain stream).2.1 draft = .error failure := by
  rw [parse, Draft.result_complete, bind_error_iff, Draft.acceptAll_error]

namespace Template
variable {content : String} {partials : Registry} {globals : Value}

theorem compile_ok_iff {template : Template} : (compile content partials globals).result = .ok template ↔
    ∃ children, (parse partials [] rootName (Lexer.ofSource rootName content)).1.result = .ok (.block children) ∧
      template = ⟨.block children, partials, globals⟩ := by
  rw [compile, Compilation.result_bind, bind_ok_iff]
  constructor
  · intro ⟨tree, parsed, same⟩
    cases same
    obtain ⟨_, nodes, rfl, _⟩ := parse_ok.mp parsed
    exact ⟨nodes.reverse, parsed, rfl⟩
  · intro ⟨children, parsed, same⟩
    subst same
    exact ⟨.block children, parsed, rfl⟩

theorem compile_error_iff {failure : CompileFailure} : (compile content partials globals).result = .error failure ↔
    (parse partials [] rootName (Lexer.ofSource rootName content)).1.result = .error failure := by
  simp [compile, parseSource, bind_error_iff]

end Template
end Stencil
