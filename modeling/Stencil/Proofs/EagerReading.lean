import Stencil.Proofs.CompileFailures
import Stencil.Proofs.DiagnosticPlaces

/-! Tokens as they come and tokens read beforehand. A draft takes tokens while the rest of its source is still unread, so it
may stop before a fault in the source is seen. It makes no other difference that the source is read on the way: what comes of
the tokens is the same, and a fault in the source comes after what is wrong with the tokens before it. -/

namespace Stencil
open CompileFailures (Completable completable_iff)

namespace Draft
variable {σ : Type} [TokenStream σ] {inclusion : Inclusion} {source : String} {stream rest : σ}

theorem complete_done (draft : Draft) (taken : TokenStream.next stream = .ok none rest) :
    draft.complete inclusion source stream = (draft.finish source, rest) := by
  rw [complete]
  split <;> simp_all

theorem complete_refused {draft : Draft} {token : Token} {failure : CompileFailure}
    (taken : TokenStream.next stream = .ok (some token) rest)
    (refused : (draft.accept inclusion source token).result = .error failure) :
    draft.complete inclusion source stream = (⟨(draft.accept inclusion source token).expansions, .error failure⟩, rest) := by
  rw [complete]
  split <;> simp_all

theorem complete_taken {draft next : Draft} {token : Token} (taken : TokenStream.next stream = .ok (some token) rest)
    (kept : (draft.accept inclusion source token).result = .ok next) : draft.complete inclusion source stream =
      (⟨(draft.accept inclusion source token).expansions ++ (next.complete inclusion source rest).1.expansions,
        (next.complete inclusion source rest).1.result⟩, (next.complete inclusion source rest).2) := by
  rw [complete]
  split <;> simp_all

theorem expansions_finish (draft : Draft) (source : String) : (draft.finish source).expansions = [] := by
  obtain ⟨nodes, enclosures⟩ := draft
  cases enclosures <;> rfl

/-- The partials that are expanded on the way depend on the tokens and not on what supplies them. -/
theorem expansions_complete (draft : Draft) (stream : σ) : (draft.complete inclusion source stream).1.expansions =
    (draft.complete inclusion source (TokenStream.drain stream).1).1.expansions := by
  fun_induction draft.complete inclusion source stream with
  | case1 draft stream diagnostic rest taken =>
    rw [TokenStream.drain_fault taken, complete_done draft (show TokenStream.next ([] : List Token) = .ok none [] from rfl),
      expansions_finish]
    rfl
  | case2 draft stream rest taken =>
    rw [TokenStream.drain_done taken, complete_done draft (show TokenStream.next ([] : List Token) = .ok none [] from rfl)]
  | case3 draft stream token rest taken accepted failure refused =>
    rw [TokenStream.drain_token taken, complete_refused rfl refused]
  | case4 draft stream token rest taken accepted next kept completed left finished ih =>
    rw [finished] at ih
    rw [TokenStream.drain_token taken, complete_taken rfl kept]
    exact congrArg (accepted.expansions ++ ·) ih

end Draft

/-- Of tokens that are gone through in their order, the first that cannot be taken fails so, whatever comes behind it. -/
def FailsFirst (registry : Registry) (chain : List String) (source : String) (tokens : List Token)
    (failure : CompileFailure) : Prop :=
  ∃ before token after, tokens = before ++ token :: after ∧ Completable registry chain source before ∧
    ∀ others, (parse registry chain source (before ++ token :: others)).1.result = .error failure

section
variable {registry : Registry} {chain : List String} {source : String}

theorem failsFirst_iff {tokens : List Token} {failure : CompileFailure} : FailsFirst registry chain source tokens failure ↔
    Draft.empty.acceptAll (expand registry chain) source tokens = .error failure := by
  constructor
  · intro ⟨before, token, after, split, sound, fails⟩
    obtain ⟨draft, taken⟩ := completable_iff.mp sound
    refine Draft.acceptAll_error.mpr ⟨before, token, after, draft, split, taken, ?_⟩
    cases accepted : (draft.accept (expand registry chain) source token).result with
    | error other =>
      have failed := fails []
      rw [result_parse_list, Draft.acceptAll_append, taken] at failed
      simp only [bind, Except.bind, Draft.acceptAll_cons, accepted] at failed
      cases failed
      rfl
    | ok next =>
      -- Then the tokens up to this one can be completed, and so the run does not always fail.
      have further : Completable registry chain source (before ++ [token]) := completable_iff.mpr ⟨next,
        Draft.acceptAll_append_ok.mpr ⟨draft, taken, Draft.acceptAll_cons_ok.mpr ⟨next, Draft.accept_ok_iff.mp accepted, rfl⟩⟩⟩
      obtain ⟨count, tree, parsed⟩ := further
      rw [List.append_assoc, List.singleton_append, fails] at parsed
      cases parsed
  · intro failed
    obtain ⟨before, token, after, draft, split, taken, refused⟩ := Draft.acceptAll_error.mp failed
    refine ⟨before, token, after, split, completable_iff.mpr ⟨draft, taken⟩, ?_⟩
    intro others
    rw [result_parse_list, bind_error_iff]
    exact .inl (Draft.acceptAll_error.mpr ⟨before, token, others, draft, rfl, taken, refused⟩)

/-- A token is refused over a block that was left open only if it stands for a partial. -/
theorem inclusion_of_unterminated {draft : Draft} {token : Token} {construct : String} {place : Option Position}
    {site : Option String} (refused : (draft.accept (expand registry chain) source token).result =
      .error (.diagnosed ⟨.unterminated construct, place, site⟩)) :
    ∃ name, token.form = .inclusion name ∧ (expand registry chain name token.position source).result =
      .error (.diagnosed ⟨.unterminated construct, place, site⟩) := by
  cases Draft.refuses_of_accept refused with
  | inclusion failed => exact ⟨_, rfl, failed⟩
  | @choice _ pieces _ unsound =>
    by_cases filled : pieces = []
    · subst filled
      cases unsound
    · obtain ⟨_, _, _, _, same⟩ := Condition.blames_of_ofPieces filled unsound
      cases same

/-- A source that is read as its tokens are asked for comes to what its tokens come to, if it has no fault. If it has one, that
is what it comes to unless one of the tokens before it fails; no block of its own is found open at the end. -/
theorem parse_reads_ahead (registry : Registry) (chain : List String) (source content : String) :
    let tokens := (tokensFrom (.ofSource source content)).1
    let parsed := (parse registry chain source (Lexer.ofSource source content)).1
    (∀ lexer, (do if ← Lexer.atEnd then return none else Lexer.next) lexer = Lexer.next lexer) ∧
    ((tokensFrom (.ofSource source content)).2.1 = none → parsed = (parse registry chain source tokens).1) ∧
    ∀ fault, (tokensFrom (.ofSource source content)).2.1 = some fault →
      (∀ failure, FailsFirst registry chain source tokens failure → parsed.result = .error failure ∧
        ∃ token ∈ tokens, token.form ≠ .bare ∧ ∃ draft, Draft.Refuses (expand registry chain) source draft token failure) ∧
      ((∀ failure, ¬ FailsFirst registry chain source tokens failure) → parsed.result = .error (.diagnosed fault)) ∧
      (∀ tree, parsed.result ≠ .ok tree) ∧
      ∀ construct place site, parsed.result = .error (.diagnosed ⟨.unterminated construct, place, site⟩) →
        ∃ token ∈ tokens, ∃ name, token.form = .inclusion name ∧
          (expand registry chain name token.position source).result =
            .error (.diagnosed ⟨.unterminated construct, place, site⟩) := by
  intro tokens parsed
  have result : parsed.result = Draft.empty.acceptAll (expand registry chain) source tokens >>=
      Draft.conclude source (tokensFrom (.ofSource source content)).2.1 := Draft.result_complete _ _
  refine ⟨Lexer.look_then_next, ?_, ?_⟩
  · intro sound
    have expansions : parsed.expansions = (parse registry chain source tokens).1.expansions := Draft.expansions_complete _ _
    rw [sound] at result
    have results : parsed.result = (parse registry chain source tokens).1.result := by
      rw [result, result_parse_list]
      rfl
    obtain ⟨_, _⟩ := parsed
    cases expansions
    cases results
    rfl
  · intro fault faulty
    rw [faulty] at result
    refine ⟨?_, ?_, ?_, ?_⟩
    · intro failure fails
      have stopped := failsFirst_iff.mp fails
      obtain ⟨before, token, after, draft, split, _, refused⟩ := Draft.acceptAll_error.mp stopped
      have member : token ∈ tokens := by simp [split]
      refine ⟨by rw [result, stopped]; rfl, token, member, ?_, draft, Draft.refuses_of_accept refused⟩
      intro bare
      have sound := sound_of_mem_tokensFrom member
      rw [bare] at sound
      exact sound
    · intro none
      cases taken : Draft.empty.acceptAll (expand registry chain) source tokens with
      | error failure => exact absurd (failsFirst_iff.mpr taken) (none failure)
      | ok draft =>
        rw [result, taken]
        rfl
    · intro tree made
      rw [result, bind_ok_iff] at made
      obtain ⟨draft, _, made⟩ := made
      cases made
    · intro construct place site stopped
      rw [result, bind_error_iff] at stopped
      rcases stopped with refused | ⟨draft, _, ended⟩
      · obtain ⟨before, token, after, draft, split, _, refused⟩ := Draft.acceptAll_error.mp refused
        exact ⟨token, by simp [split], inclusion_of_unterminated refused⟩
      · cases ended
        obtain ⟨there, _, about⟩ := fault_of_tokensFrom faulty
        exact absurd about.shows id

end

def unended : String := "\x7b%if x%\x7d\x7b\x7b"

/-- A partial, and a tag that is cut short. -/
def cutShort : String := "\x7b>p\x7d\x7b\x7b"

def leftOpen : Registry := ⟨[("p", "\x7b%if x%\x7d")]⟩

private theorem unended_read :
    Token.read? (.into rootName unended 0) = .ok (some ⟨some ⟨1, 0⟩, .choice [⟨.identifier, "x", some ⟨1, 5⟩⟩]⟩)
        (.into rootName unended 8) ∧
      Token.read? (.into rootName unended 8) = .error ⟨.unexpectedCharacter "a variable name" "", some ⟨1, 10⟩,
        some rootName⟩ (.into rootName unended 10) := by
  refine ⟨?_, ?_⟩ <;> cbv

private theorem unended_tokens : tokensFrom (.ofSource rootName unended) =
    ([⟨some ⟨1, 0⟩, .choice [⟨.identifier, "x", some ⟨1, 5⟩⟩]⟩],
      some ⟨.unexpectedCharacter "a variable name" "", some ⟨1, 10⟩, some rootName⟩, ⟨.into rootName unended 10, none⟩) := by
  obtain ⟨choice, fault⟩ := unended_read
  change tokensFrom (.into rootName unended 0) = _
  rw [tokensFrom_token choice, tokensFrom_fault fault]

private theorem cutShort_read :
    Token.read? (.into rootName cutShort 0) = .ok (some ⟨some ⟨1, 0⟩, .inclusion "p"⟩) (.into rootName cutShort 4) ∧
      Token.read? (.into rootName cutShort 4) = .error ⟨.unexpectedCharacter "a variable name" "", some ⟨1, 6⟩,
        some rootName⟩ (.into rootName cutShort 6) := by
  refine ⟨?_, ?_⟩ <;> cbv

private theorem cutShort_tokens : tokensFrom (.ofSource rootName cutShort) = ([⟨some ⟨1, 0⟩, .inclusion "p"⟩],
    some ⟨.unexpectedCharacter "a variable name" "", some ⟨1, 6⟩, some rootName⟩, ⟨.into rootName cutShort 6, none⟩) := by
  obtain ⟨inclusion, fault⟩ := cutShort_read
  change tokensFrom (.into rootName cutShort 0) = _
  rw [tokensFrom_token inclusion, tokensFrom_fault fault]

private theorem leftOpen_read :
    Token.read? (.into "p" "\x7b%if x%\x7d" 0) = .ok (some ⟨some ⟨1, 0⟩, .choice [⟨.identifier, "x", some ⟨1, 5⟩⟩]⟩)
        (.into "p" "\x7b%if x%\x7d" 8) ∧
      Token.read? (.into "p" "\x7b%if x%\x7d" 8) = .ok none (.into "p" "\x7b%if x%\x7d" 8) := by
  refine ⟨?_, ?_⟩ <;> cbv

private theorem leftOpen_tokens : tokensFrom (.ofSource "p" "\x7b%if x%\x7d") =
    ([⟨some ⟨1, 0⟩, .choice [⟨.identifier, "x", some ⟨1, 5⟩⟩]⟩], none, ⟨.into "p" "\x7b%if x%\x7d" 8, none⟩) := by
  obtain ⟨choice, ended⟩ := leftOpen_read
  change tokensFrom (.into "p" "\x7b%if x%\x7d" 0) = _
  rw [tokensFrom_token choice, tokensFrom_done ended]

private theorem choice_taken (inclusion : Inclusion) (source : String) : Draft.empty.acceptAll inclusion source
    [⟨some ⟨1, 0⟩, .choice [⟨.identifier, "x", some ⟨1, 5⟩⟩]⟩] =
      .ok (Draft.empty.enter (.consequence (.variable "x")) (some ⟨1, 0⟩)) := by
  have sound : Condition.ofPieces ⟨some ⟨1, 0⟩, source⟩ [⟨.identifier, "x", some ⟨1, 5⟩⟩] = .ok (.variable "x") := by cbv
  exact Draft.acceptAll_cons_ok.mpr ⟨_, .choice sound, rfl⟩

private theorem leftOpen_refused : (expand leftOpen [] "p" (some ⟨1, 0⟩) rootName).result =
    .error (.diagnosed ⟨.unterminated "if", some ⟨1, 0⟩, some "p"⟩) := by
  have drained : TokenStream.drain (Lexer.ofSource "p" "\x7b%if x%\x7d") = _ := leftOpen_tokens
  have parsed : (parse leftOpen ["p"] "p" (Lexer.ofSource "p" "\x7b%if x%\x7d")).1.result =
      .error (.diagnosed ⟨.unterminated "if", some ⟨1, 0⟩, some "p"⟩) := by
    rw [parse, Draft.result_complete, drained, choice_taken]
    rfl
  rw [result_expand]
  exact parsed

/-- What stands open when the tag is reached is not reported, unless a partial left it open. -/
theorem parse_reads_ahead_cutShort :
    (parse .empty [] rootName (Lexer.ofSource rootName unended)).1.result =
        .error (.diagnosed ⟨.unexpectedCharacter "a variable name" "", some ⟨1, 10⟩, some rootName⟩) ∧
      FailsFirst leftOpen [] rootName (tokensFrom (.ofSource rootName cutShort)).1
        (.diagnosed ⟨.unterminated "if", some ⟨1, 0⟩, some "p"⟩) ∧
      (parse leftOpen [] rootName (Lexer.ofSource rootName cutShort)).1.result =
        .error (.diagnosed ⟨.unterminated "if", some ⟨1, 0⟩, some "p"⟩) ∧
      (parse leftOpen ["p"] "p" (Lexer.ofSource "p" "\x7b%if x%\x7d")).1 =
        (parse leftOpen ["p"] "p" ([⟨some ⟨1, 0⟩, .choice [⟨.identifier, "x", some ⟨1, 5⟩⟩]⟩] : List Token)).1 := by
  obtain ⟨_, _, faulty⟩ := parse_reads_ahead .empty [] rootName unended
  obtain ⟨_, _, faulty'⟩ := parse_reads_ahead leftOpen [] rootName cutShort
  obtain ⟨_, faultless, _⟩ := parse_reads_ahead leftOpen ["p"] "p" "\x7b%if x%\x7d"
  have same := faultless (by rw [leftOpen_tokens])
  rw [leftOpen_tokens] at same
  obtain ⟨_, otherwise, _, _⟩ := faulty _ (by rw [unended_tokens])
  obtain ⟨fails, _, _, _⟩ := faulty' _ (by rw [cutShort_tokens])
  have fine : ∀ failure, ¬ FailsFirst .empty [] rootName (tokensFrom (.ofSource rootName unended)).1 failure := by
    intro failure
    rw [failsFirst_iff, unended_tokens, choice_taken]
    exact nofun
  have refused : FailsFirst leftOpen [] rootName (tokensFrom (.ofSource rootName cutShort)).1
      (.diagnosed ⟨.unterminated "if", some ⟨1, 0⟩, some "p"⟩) := by
    rw [failsFirst_iff, cutShort_tokens, Draft.acceptAll_cons, Draft.accept, Compilation.result_bind, leftOpen_refused]
    rfl
  exact ⟨otherwise fine, refused, (fails _ refused).1, same⟩

end Stencil
