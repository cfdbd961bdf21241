import Mathlib
import Stencil.Proofs.InclusionTrails
import Stencil.Proofs.SourceExtent
import Stencil.Proofs.TagBalance

/-! What comes of compiling where nothing is wrong but the way sources include each other. Every partial that is met is
expanded for as long as no trail is in trouble, so compiling succeeds exactly if all names that can be reached are registered
and none leads back to itself; otherwise it fails over the first trouble. -/

namespace Stencil
open Diagnostic (Cause)
open Relation (ReflTransGen TransGen)

namespace InclusionTrails

/-- Nothing is wrong with a source by itself: all of it is read, its tags balance and its conditions are sound. -/
structure Sound (source content : String) : Prop where
  read : (tokensFrom (.ofSource source content)).2.1 = none
  balanced : TagBalance.run [] (tokensFrom (.ofSource source content)).1 = .balanced
  conditions : ∀ token ∈ (tokensFrom (.ofSource source content)).1, ∀ pieces, token.form = .choice pieces →
    ∃ condition, Condition.ofPieces ⟨token.position, source⟩ pieces = .ok condition

variable {registry : Registry} {chain : List String} {source content : String}

private theorem Sound.acceptable_iff (sound : Sound source content) {token : Token}
    (member : token ∈ (tokensFrom (.ofSource source content)).1) :
    TagBalance.Acceptable (expand registry chain) source token ↔
      ∀ tag, named? token = some tag → ∃ tree, (expand registry chain tag.1 tag.2 source).result = .ok tree := by
  have said := sound_of_mem_tokensFrom member
  have conditions := sound.conditions token member
  unfold TagBalance.Acceptable named?
  cases form : token.form with
  | choice pieces => simpa using conditions pieces form
  | bare => simp [Token.Form.Sound, form] at said
  | _ => simp

private theorem Sound.expanded {tokens : List Token} (sound : Sound source content)
    (within : ∀ token ∈ tokens, token ∈ (tokensFrom (.ofSource source content)).1)
    (acceptable : ∀ token ∈ tokens, TagBalance.Acceptable (expand registry chain) source token) :
    ∀ tag ∈ tokens.filterMap named?, ∃ tree, (expand registry chain tag.1 tag.2 source).result = .ok tree := by
  intro tag member
  obtain ⟨token, inside, names⟩ := List.mem_filterMap.mp member
  exact (sound.acceptable_iff (within token inside)).mp (acceptable token inside) tag names

private theorem Sound.parse_ok (sound : Sound source content)
    (acceptable : ∀ token ∈ (tokensFrom (.ofSource source content)).1,
      TagBalance.Acceptable (expand registry chain) source token) :
    ∃ tree, (parse registry chain source (Lexer.ofSource source content)).1.result = .ok tree := by
  have described := TagBalance.run_described .empty acceptable
  have balanced : TagBalance.run (TagBalance.stackOf .empty) (tokensFrom (.ofSource source content)).1 = .balanced :=
    sound.balanced
  rw [balanced] at described
  obtain ⟨children, done⟩ := described
  have start : TokenStream.drain (Lexer.ofSource source content) = tokensFrom (.ofSource source content) := rfl
  rw [Stencil.parse, Draft.result_complete, start, sound.read]
  exact ⟨_, done⟩

private theorem Sound.parse_error (sound : Sound source content) {front back : List Token} {token : Token}
    {tag : String × Option Position} {failure : CompileFailure}
    (split : (tokensFrom (.ofSource source content)).1 = front ++ token :: back)
    (acceptable : ∀ token ∈ front, TagBalance.Acceptable (expand registry chain) source token)
    (names : named? token = some tag) (failed : (expand registry chain tag.1 tag.2 source).result = .error failure) :
    (parse registry chain source (Lexer.ofSource source content)).1.result = .error failure := by
  have balanced : TagBalance.run (TagBalance.stackOf .empty) (front ++ token :: back) = .balanced :=
    split ▸ sound.balanced
  obtain ⟨draft, taken⟩ := TagBalance.accepted_of_balanced .empty acceptable balanced
  refine Stencil.parse_error.mpr (.inl ⟨front, token, back, draft, split, taken, ?_⟩)
  obtain ⟨position, form⟩ := token
  cases form <;> cases names
  simp only [Draft.accept, Compilation.result_bind, failed]
  rfl

/-- A sound source is parsed if all its partials are expanded, and fails with the first that is not. -/
private theorem Sound.parse (sound : Sound source content) (registry : Registry) (chain : List String) :
    ((∃ tree, (parse registry chain source (Lexer.ofSource source content)).1.result = .ok tree) ∧
      ∀ tag ∈ tags source content, ∃ tree, (expand registry chain tag.1 tag.2 source).result = .ok tree) ∨
    ∃ before tag after failure, tags source content = before ++ tag :: after ∧
      (∀ earlier ∈ before, ∃ tree, (expand registry chain earlier.1 earlier.2 source).result = .ok tree) ∧
      (expand registry chain tag.1 tag.2 source).result = .error failure ∧
      (parse registry chain source (Lexer.ofSource source content)).1.result = .error failure := by
  classical
  let tokens := (tokensFrom (.ofSource source content)).1
  cases found : tokens.find? fun token => !decide (TagBalance.Acceptable (expand registry chain) source token) with
  | none =>
    have acceptable : ∀ token ∈ tokens, TagBalance.Acceptable (expand registry chain) source token := by
      simpa using List.find?_eq_none.mp found
    exact .inl ⟨sound.parse_ok acceptable, sound.expanded (fun _ member => member) acceptable⟩
  | some token =>
    obtain ⟨refused, front, back, split, earlier⟩ := List.find?_eq_some_iff_append.mp found
    have inside : token ∈ tokens := by simp [split]
    have within : ∀ token ∈ front, token ∈ tokens := fun token member => by simp [split, member]
    have acceptable : ∀ token ∈ front, TagBalance.Acceptable (expand registry chain) source token := by simpa using earlier
    simp only [Bool.not_eq_true', decide_eq_false_iff_not, sound.acceptable_iff inside, not_forall] at refused
    obtain ⟨tag, names, unexpanded⟩ := refused
    cases outcome : (expand registry chain tag.1 tag.2 source).result with
    | ok tree => exact absurd ⟨tree, outcome⟩ unexpanded
    | error failure =>
      have failed := sound.parse_error split acceptable names outcome
      refine .inr ⟨front.filterMap named?, tag, back.filterMap named?, failure, ?_, ?_, outcome, failed⟩
      · rw [tags, show (tokensFrom _).1 = _ from split, List.filterMap_append, List.filterMap_cons_some names]
      · exact sound.expanded within acceptable

/-- Expansion through one tag: it comes to the tag itself, and if that names a registered partial, to the tags inside. -/
private theorem Arrives.through {arrival : Arrival} {index : Nat} {name : String} {position : Option Position}
    (arrives : Arrives registry source content arrival) (head : arrival.route.head? = some index)
    (stands : (tags source content)[index]? = some (name, position)) :
    arrival = ⟨[index], [name], source, position⟩ ∨ ∃ inner further, registry.find? name = some inner ∧
      Arrives registry name inner further ∧
      arrival = ⟨index :: further.route, name :: further.names, further.source, further.position⟩ := by
  cases arrives with
  | tag found =>
    cases head
    cases found.symm.trans stands
    exact .inl rfl
  | within found registered further =>
    cases head
    cases found.symm.trans stands
    exact .inr ⟨_, _, registered, further, rfl⟩

private theorem trouble_last {name : String} {cause : Cause} (trouble : Trouble registry (chain ++ [name]) cause) :
    registry.find? name = none ∨ name ∈ chain := by
  generalize same : chain ++ [name] = names at trouble
  cases trouble with
  | unknown distinct absent =>
    obtain ⟨_, last⟩ := List.append_inj' same rfl
    cases last
    exact .inl absent
  | recursive distinct again =>
    obtain ⟨rfl, last⟩ := List.append_inj' same rfl
    cases last
    exact .inr again

/-- There is a tree and no trouble among the arrivals, or the failure is over the first trouble. -/
private def Settles (registry : Registry) (chain : List String) (among : Arrival → Prop)
    (result : Except CompileFailure Node) : Prop :=
  ((∃ tree, result = .ok tree) ∧ ∀ arrival cause, among arrival → ¬ Trouble registry (chain ++ arrival.names) cause) ∨
    ∃ arrival cause, FirstTrouble registry chain among arrival cause ∧
      result = .error (.diagnosed ⟨cause, arrival.position, some arrival.source⟩)

private theorem settles_tag {index : Nat} {name : String} {position : Option Position} (distinct : chain.Nodup)
    (stands : (tags source content)[index]? = some (name, position))
    (inside : ∀ inner, registry.find? name = some inner → name ∉ chain →
      Settles registry (chain ++ [name]) (Arrives registry name inner)
        (parse registry (chain ++ [name]) name (Lexer.ofSource name inner)).1.result) :
    Settles registry chain (fun arrival => Arrives registry source content arrival ∧ arrival.route.head? = some index)
      (expand registry chain name position source).result := by
  rw [result_expand]
  cases registered : registry.find? name with
  | none =>
    refine .inr ⟨_, _, ⟨⟨.tag stands, rfl⟩, .unknown distinct registered, ?_⟩, rfl⟩
    intro other reason ⟨arrives, head⟩ _
    rcases arrives.through head stands with rfl | ⟨inner, further, held, _⟩
    · exact List.lt_irrefl _
    · simp [registered] at held
  | some inner =>
    by_cases used : name ∈ chain
    · simp only [used, if_true]
      refine .inr ⟨_, _, ⟨⟨.tag stands, rfl⟩, .recursive distinct used, ?_⟩, rfl⟩
      intro other reason ⟨arrives, head⟩ _
      rcases arrives.through head stands with rfl | ⟨_, further, _, _, rfl⟩
      · exact List.lt_irrefl _
      · simp
    · simp only [used, if_false]
      have fresh {cause : Cause} : ¬ Trouble registry (chain ++ [name]) cause := by
        intro trouble
        rcases trouble_last trouble with absent | again
        · simp [registered] at absent
        · exact used again
      rcases inside inner registered used with ⟨parsed, untroubled⟩ | ⟨arrival, cause, ⟨arrives, trouble, first⟩, failed⟩
      · refine .inl ⟨parsed, ?_⟩
        intro other reason ⟨arrives, head⟩ trouble
        rcases arrives.through head stands with rfl | ⟨_, further, held, within, rfl⟩
        · exact fresh trouble
        · cases registered.symm.trans held
          exact untroubled further reason within (by simpa using trouble)
      · refine .inr ⟨_, cause, ⟨⟨.within stands registered arrives, rfl⟩, by simpa using trouble, ?_⟩, failed⟩
        intro other reason ⟨arrives, head⟩ trouble earlier
        rcases arrives.through head stands with rfl | ⟨_, further, held, within, rfl⟩
        · exact fresh trouble
        · cases registered.symm.trans held
          rcases List.cons_lt_cons_iff.mp earlier with before | ⟨_, before⟩
          · exact Nat.lt_irrefl _ before
          · exact first further reason within (by simpa using trouble) before

private theorem Arrives.head {arrival : Arrival} (arrives : Arrives registry source content arrival) :
    ∃ index rest tag, arrival.route = index :: rest ∧ (tags source content)[index]? = some tag := by
  cases arrives with
  | tag stands => exact ⟨_, _, _, rfl, stands⟩
  | within stands registered further => exact ⟨_, _, _, rfl, stands⟩

/-- Parsing expands the tags from left to right, so the first trouble of the first tag in trouble comes first. -/
private theorem settles_parse (sound : Sound source content)
    (each : ∀ (index : Nat) (name : String) (position : Option Position),
      (tags source content)[index]? = some (name, position) →
      Settles registry chain (fun arrival => Arrives registry source content arrival ∧ arrival.route.head? = some index)
        (expand registry chain name position source).result) :
    Settles registry chain (Arrives registry source content)
      (parse registry chain source (Lexer.ofSource source content)).1.result := by
  have untroubled {index : Nat} {tag : String × Option Position} {arrival : Arrival} {rest : List Nat} {cause : Cause}
      (stands : (tags source content)[index]? = some tag)
      (expanded : ∃ tree, (expand registry chain tag.1 tag.2 source).result = .ok tree)
      (arrives : Arrives registry source content arrival) (head : arrival.route = index :: rest) :
      ¬ Trouble registry (chain ++ arrival.names) cause := by
    obtain ⟨tree, done⟩ := expanded
    rcases each index tag.1 tag.2 stands with ⟨_, quiet⟩ | ⟨_, _, _, failed⟩
    · exact quiet arrival cause ⟨arrives, by rw [head]; rfl⟩
    · simp [done] at failed
  rcases sound.parse registry chain with ⟨parsed, expanded⟩ | ⟨before, tag, after, failure, split, expanded, failed, failed'⟩
  · refine .inl ⟨parsed, ?_⟩
    intro arrival cause arrives
    obtain ⟨index, rest, tag, head, stands⟩ := arrives.head
    exact untroubled stands (expanded tag (List.mem_of_getElem? stands)) arrives head
  · have stands : (tags source content)[before.length]? = some tag := by simp [split]
    rcases each before.length tag.1 tag.2 stands with ⟨⟨_, done⟩, _⟩ | ⟨arrival, cause, settled, refused⟩
    · simp [done] at failed
    · obtain ⟨⟨arrives, head⟩, trouble, first⟩ := settled
      rw [failed] at refused
      rw [failed']
      refine .inr ⟨arrival, cause, ⟨arrives, trouble, ?_⟩, refused⟩
      intro other reason arrives' trouble' earlier
      obtain ⟨index, rest, tag', head', stands'⟩ := arrives'.head
      obtain ⟨rest', here⟩ := List.head?_eq_some_iff.mp head
      rw [head', here, List.cons_lt_cons_iff] at earlier
      rcases earlier with left | ⟨rfl, deeper⟩
      · rw [split, List.getElem?_append_left left] at stands'
        refine untroubled ?_ (expanded tag' (List.mem_of_getElem? stands')) arrives' head' trouble'
        rw [split, List.getElem?_append_left left, stands']
      · refine first other reason ⟨arrives', by rw [head']; rfl⟩ trouble' ?_
        rw [head', here]
        exact List.cons_lt_cons_iff.mpr (.inr ⟨rfl, deeper⟩)

private theorem settles (held : ∀ name inner, registry.find? name = some inner → Sound name inner)
    (sound : Sound source content) (distinct : chain.Nodup) :
    Settles registry chain (Arrives registry source content)
      (parse registry chain source (Lexer.ofSource source content)).1.result := by
  induction chain using registry.chain_induction generalizing source content with
  | step chain ih =>
    apply settles_parse sound
    intro index name position stands
    apply settles_tag distinct stands
    intro inner registered fresh
    have longer : (chain ++ [name]).Nodup := List.concat_eq_append ▸ distinct.concat fresh
    exact ih name inner registered fresh (held name inner registered) longer

/-- Sound sources compile exactly if every name that can be reached is registered and none leads back to itself. If they do
not, it is for the first trouble; a chain that closes is a trail of distinct names up to its last. -/
theorem compile_expands {content : String} {partials : Registry} (globals : Value) (sound : Sound rootName content)
    (held : ∀ name inner, partials.find? name = some inner → Sound name inner) :
    ((∃ template, (Template.compile content partials globals).result = .ok template) ↔
        Complete partials rootName content ∧ Acyclic partials rootName content) ∧
      (∀ failure, (Template.compile content partials globals).result = .error failure →
        ∃ arrival cause, FirstTrouble partials [] (Arrives partials rootName content) arrival cause ∧
          failure = .diagnosed ⟨cause, arrival.position, some arrival.source⟩) ∧
      ∀ names place source, (Template.compile content partials globals).result =
          .error (.diagnosed ⟨.recursivePartial names, place, source⟩) →
        Trail partials rootName content names ∧ ∃ outer last, names = outer ++ [last] ∧ outer.Nodup ∧ last ∈ outer := by
  have settled := settles held sound List.nodup_nil
  have failing (failure : CompileFailure) (failed : (Template.compile content partials globals).result = .error failure) :
      ∃ arrival cause, FirstTrouble partials [] (Arrives partials rootName content) arrival cause ∧
        failure = .diagnosed ⟨cause, arrival.position, some arrival.source⟩ := by
    rw [Template.compile_error_iff] at failed
    rcases settled with ⟨⟨tree, parsed⟩, _⟩ | ⟨arrival, cause, first, refused⟩
    · simp [parsed] at failed
    · rw [failed] at refused
      exact ⟨arrival, cause, first, Except.error.inj refused⟩
  refine ⟨?_, failing, ?_⟩
  · rw [← untroubled_iff]
    constructor
    · intro ⟨template, compiled⟩
      obtain ⟨children, parsed, _⟩ := Template.compile_ok_iff.mp compiled
      rcases settled with ⟨_, untroubled⟩ | ⟨arrival, cause, first, refused⟩
      · exact untroubled
      · simp [parsed] at refused
    · intro untroubled
      rcases settled with ⟨⟨tree, parsed⟩, _⟩ | ⟨arrival, cause, first, refused⟩
      · obtain ⟨_, nodes, rfl, _⟩ := parse_ok.mp parsed
        exact ⟨_, Template.compile_ok_iff.mpr ⟨_, parsed, rfl⟩⟩
      · exact absurd first.trouble (untroubled arrival cause first.comes)
  · intro names place source failed
    obtain ⟨arrival, cause, first, same⟩ := failing _ failed
    cases same
    have trail := first.comes.trail
    have trouble : Trouble partials arrival.names (.recursivePartial names) := first.trouble
    generalize arrival.names = walked at trail trouble
    cases trouble with
    | recursive distinct again => exact ⟨trail, _, _, rfl, distinct, again⟩

def knot : String := "\x7b> c\x7d\x7b> a\x7d"

def link : String := "\x7b> b\x7d"

def bow : String := "\x7b% if x %\x7d\x7b> a\x7d\x7b% end %\x7d"

/-- Of two partials each includes the other, the one in a branch. -/
def knots : Registry := ⟨[("a", link), ("b", bow), ("c", "y")]⟩

private theorem knot_read :
    Token.read? (.into rootName knot 0) = .ok (some ⟨some ⟨1, 0⟩, .inclusion "c"⟩) (.into rootName knot 5) ∧
      Token.read? (.into rootName knot 5) = .ok (some ⟨some ⟨1, 5⟩, .inclusion "a"⟩) (.into rootName knot 10) ∧
      Token.read? (.into rootName knot 10) = .ok none (.into rootName knot 10) := by
  refine ⟨?_, ?_, ?_⟩ <;> cbv

private theorem knot_tokens : tokensFrom (.into rootName knot 0) =
    ([⟨some ⟨1, 0⟩, .inclusion "c"⟩, ⟨some ⟨1, 5⟩, .inclusion "a"⟩], none, ⟨.into rootName knot 10, none⟩) := by
  obtain ⟨first, second, ended⟩ := knot_read
  rw [tokensFrom_token first, tokensFrom_token second, tokensFrom_done ended]

private theorem link_read : Token.read? (.into "a" link 0) = .ok (some ⟨some ⟨1, 0⟩, .inclusion "b"⟩) (.into "a" link 5) ∧
    Token.read? (.into "a" link 5) = .ok none (.into "a" link 5) := by
  refine ⟨?_, ?_⟩ <;> cbv

private theorem link_tokens : tokensFrom (.into "a" link 0) =
    ([⟨some ⟨1, 0⟩, .inclusion "b"⟩], none, ⟨.into "a" link 5, none⟩) := by
  obtain ⟨first, ended⟩ := link_read
  rw [tokensFrom_token first, tokensFrom_done ended]

private theorem bow_read :
    Token.read? (.into "b" bow 0) =
        .ok (some ⟨some ⟨1, 0⟩, .choice [⟨.identifier, "x", some ⟨1, 6⟩⟩]⟩) (.into "b" bow 10) ∧
      Token.read? (.into "b" bow 10) = .ok (some ⟨some ⟨1, 10⟩, .inclusion "a"⟩) (.into "b" bow 15) ∧
      Token.read? (.into "b" bow 15) = .ok (some ⟨some ⟨1, 15⟩, .close⟩) (.into "b" bow 24) ∧
      Token.read? (.into "b" bow 24) = .ok none (.into "b" bow 24) := by
  refine ⟨?_, ?_, ?_, ?_⟩ <;> cbv

private theorem bow_tokens : tokensFrom (.into "b" bow 0) =
    ([⟨some ⟨1, 0⟩, .choice [⟨.identifier, "x", some ⟨1, 6⟩⟩]⟩, ⟨some ⟨1, 10⟩, .inclusion "a"⟩, ⟨some ⟨1, 15⟩, .close⟩], none,
      ⟨.into "b" bow 24, none⟩) := by
  obtain ⟨first, second, third, ended⟩ := bow_read
  rw [tokensFrom_token first, tokensFrom_token second, tokensFrom_token third, tokensFrom_done ended]

private theorem plain_read : Token.read? (.into "c" "y" 0) = .ok (some ⟨some ⟨1, 0⟩, .text "y"⟩) (.into "c" "y" 1) ∧
    Token.read? (.into "c" "y" 1) = .ok none (.into "c" "y" 1) := by
  refine ⟨?_, ?_⟩ <;> cbv

private theorem plain_tokens :
    tokensFrom (.into "c" "y" 0) = ([⟨some ⟨1, 0⟩, .text "y"⟩], none, ⟨.into "c" "y" 1, none⟩) := by
  obtain ⟨first, ended⟩ := plain_read
  rw [tokensFrom_token first, tokensFrom_done ended]

private theorem sound_of_tokens {tokens : List Token} {ended : Lexer}
    (read : tokensFrom (.into source content 0) = (tokens, none, ended)) (balanced : TagBalance.run [] tokens = .balanced)
    (conditions : ∀ token ∈ tokens, ∀ pieces, token.form = .choice pieces →
      ∃ condition, Condition.ofPieces ⟨token.position, source⟩ pieces = .ok condition) : Sound source content := by
  have tokens : tokensFrom (.ofSource source content) = _ := read
  exact ⟨by rw [tokens], by rwa [tokens], by rwa [tokens]⟩

private theorem mentions_of_tokens {tokens : List Token} {fault : Option Diagnostic} {ended : Lexer} {name : String}
    {position : Option Position} (read : tokensFrom (.into source content 0) = (tokens, fault, ended))
    (member : ⟨position, .inclusion name⟩ ∈ tokens) : Mentions source content name := by
  have tokens : tokensFrom (.ofSource source content) = _ := read
  refine ⟨position, List.mem_filterMap.mpr ⟨⟨position, .inclusion name⟩, ?_, rfl⟩⟩
  rwa [tokens]

private theorem knots_sound : ∀ name inner, knots.find? name = some inner → Sound name inner := by
  intro name inner registered
  obtain ⟨front, back, split, _⟩ := List.lookup_eq_some_iff.mp registered
  have member : (name, inner) ∈ knots.entries := by simp [split]
  simp only [knots, List.mem_cons, List.not_mem_nil, or_false, Prod.mk.injEq] at member
  rcases member with ⟨rfl, rfl⟩ | ⟨rfl, rfl⟩ | ⟨rfl, rfl⟩
  · exact sound_of_tokens link_tokens rfl (by simp)
  · have condition : Condition.ofPieces ⟨some ⟨1, 0⟩, "b"⟩ [⟨.identifier, "x", some ⟨1, 6⟩⟩] = .ok (.variable "x") := by cbv
    exact sound_of_tokens bow_tokens rfl (by simp [condition])
  · exact sound_of_tokens plain_tokens rfl (by simp)

/-- The first trouble is the cycle. -/
theorem compile_expands_knot : Sound rootName knot ∧ (∀ name inner, knots.find? name = some inner → Sound name inner) ∧
    ∃ arrival cause, FirstTrouble knots [] (Arrives knots rootName knot) arrival cause ∧
      (Template.compile knot knots (.dict [])).result =
        .error (.diagnosed ⟨cause, arrival.position, some arrival.source⟩) := by
  have sound : Sound rootName knot := sound_of_tokens knot_tokens rfl (by simp)
  obtain ⟨compiles, failing, _⟩ := compile_expands (.dict []) sound knots_sound
  refine ⟨sound, knots_sound, ?_⟩
  have down : Leads knots "a" "b" := ⟨link, rfl, mentions_of_tokens link_tokens List.mem_cons_self⟩
  have back : Leads knots "b" "a" := ⟨bow, rfl, mentions_of_tokens bow_tokens (.tail _ (.head _))⟩
  have reached : Reached knots rootName knot "a" := ⟨"a", mentions_of_tokens knot_tokens (.tail _ (.head _)), .refl⟩
  cases outcome : (Template.compile knot knots (.dict [])).result with
  | ok template => exact absurd ⟨"a", reached, .tail (.single down) back⟩ (compiles.mp ⟨template, outcome⟩).2
  | error failure =>
    obtain ⟨arrival, cause, first, rfl⟩ := failing failure outcome
    exact ⟨arrival, cause, first, rfl⟩

end InclusionTrails
end Stencil
