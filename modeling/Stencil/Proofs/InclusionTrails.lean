import Mathlib.Data.List.Chain
import Mathlib.Data.List.Nodup
import Stencil.Proofs.SourceTokens

/-! How sources include partials. A source mentions the names in its partial tags, and a registered name leads on to those
that its own source mentions. Expansion goes along such trails; it is in trouble where a trail ends at a name that is not
registered or that the trail has met before. There is such a trail exactly if a name that is not registered can be reached,
or a cycle. -/

namespace Stencil
open Diagnostic (Cause)
open Relation (ReflTransGen TransGen)

namespace InclusionTrails

def named? (token : Token) : Option (String × Option Position) :=
  match token.form with
  | .inclusion name => some (name, token.position)
  | _ => none

def tags (source content : String) : List (String × Option Position) :=
  (tokensFrom (.ofSource source content)).1.filterMap named?

def Mentions (source content name : String) : Prop := ∃ position, (name, position) ∈ tags source content

def Leads (registry : Registry) (outer inner : String) : Prop :=
  ∃ content, registry.find? outer = some content ∧ Mentions outer content inner

def Reached (registry : Registry) (source content name : String) : Prop :=
  ∃ first, Mentions source content first ∧ ReflTransGen (Leads registry) first name

/-- Names of which a source mentions the first, and each leads to the next. -/
structure Trail (registry : Registry) (source content : String) (names : List String) : Prop where
  starts : ∃ first ∈ names.head?, Mentions source content first
  leads : names.IsChain (Leads registry)

structure Arrival where
  route : List Nat
  names : List String
  source : String
  position : Option Position

inductive Arrives (registry : Registry) : String → String → Arrival → Prop
  | tag {source content name : String} {index : Nat} {position : Option Position}
      (stands : (tags source content)[index]? = some (name, position)) :
      Arrives registry source content ⟨[index], [name], source, position⟩
  | within {source content name inner : String} {index : Nat} {position : Option Position} {arrival : Arrival}
      (stands : (tags source content)[index]? = some (name, position)) (registered : registry.find? name = some inner)
      (further : Arrives registry name inner arrival) :
      Arrives registry source content
        ⟨index :: arrival.route, name :: arrival.names, arrival.source, arrival.position⟩

/-- Distinct names, and one behind them that cannot be expanded. -/
inductive Trouble (registry : Registry) : List String → Cause → Prop
  | unknown {outer : List String} {name : String} (distinct : outer.Nodup) (absent : registry.find? name = none) :
      Trouble registry (outer ++ [name]) (.unknownPartial name)
  | recursive {outer : List String} {name : String} (distinct : outer.Nodup) (again : name ∈ outer) :
      Trouble registry (outer ++ [name]) (.recursivePartial (outer ++ [name]))

/-- The first trouble among arrivals, from left to right and each partial to its depth, for a chain of partials that are
being expanded. -/
structure FirstTrouble (registry : Registry) (chain : List String) (among : Arrival → Prop) (arrival : Arrival)
    (cause : Cause) : Prop where
  comes : among arrival
  trouble : Trouble registry (chain ++ arrival.names) cause
  first : ∀ other reason, among other → Trouble registry (chain ++ other.names) reason → ¬ other.route < arrival.route

variable {registry : Registry} {source content : String}

theorem Arrives.trail {arrival : Arrival} (arrives : Arrives registry source content arrival) :
    Trail registry source content arrival.names := by
  induction arrives with
  | tag stands => exact ⟨⟨_, rfl, _, List.mem_of_getElem? stands⟩, .singleton _⟩
  | within stands registered further ih =>
    refine ⟨⟨_, rfl, _, List.mem_of_getElem? stands⟩, ih.leads.cons fun next ahead => ?_⟩
    obtain ⟨first, same, mentioned⟩ := ih.starts
    cases ahead.symm.trans same
    exact ⟨_, registered, mentioned⟩

theorem Trail.arrives {names : List String} (trail : Trail registry source content names) :
    ∃ arrival, Arrives registry source content arrival ∧ arrival.names = names := by
  induction names generalizing source content with
  | nil =>
    obtain ⟨_, absent, _⟩ := trail.starts
    cases absent
  | cons name names ih =>
    obtain ⟨_, same, position, mentioned⟩ := trail.starts
    cases same
    obtain ⟨index, stands⟩ := List.getElem?_of_mem mentioned
    cases names with
    | nil => exact ⟨_, .tag stands, rfl⟩
    | cons next names =>
      obtain ⟨⟨inner, registered, leads⟩, rest⟩ := List.isChain_cons_cons.mp trail.leads
      obtain ⟨arrival, further, same⟩ := ih ⟨⟨next, rfl, leads⟩, rest⟩
      exact ⟨_, .within stands registered further, congrArg (name :: ·) same⟩

theorem Trail.reached {names : List String} (trail : Trail registry source content names) :
    ∀ name ∈ names, Reached registry source content name := by
  apply trail.leads.induction
  · intro outer inner leads ⟨first, mentioned, reached⟩
    exact ⟨first, mentioned, reached.tail leads⟩
  · intro some
    obtain ⟨first, same, mentioned⟩ := trail.starts
    rw [(List.head_eq_iff_head?_eq_some some).mpr same]
    exact ⟨first, mentioned, .refl⟩

theorem Reached.trail {name : String} (reached : Reached registry source content name) :
    ∃ front, Trail registry source content (front ++ [name]) := by
  obtain ⟨first, mentioned, reached⟩ := reached
  obtain ⟨rest, leads, last⟩ := List.exists_isChain_cons_of_relationReflTransGen reached
  obtain ⟨front, split⟩ := List.getLast?_eq_some_iff.mp (List.getLast?_eq_some_getLast (List.cons_ne_nil first rest))
  rw [last] at split
  exact ⟨front, ⟨first, by rw [← split]; rfl, mentioned⟩, split ▸ leads⟩

def Complete (registry : Registry) (source content : String) : Prop :=
  ∀ name, Reached registry source content name → ∃ inner, registry.find? name = some inner

/-- No name that can be reached leads back to itself. -/
def Acyclic (registry : Registry) (source content : String) : Prop :=
  ¬ ∃ name, Reached registry source content name ∧ TransGen (Leads registry) name name

private theorem untroubled_of_acyclic (complete : Complete registry source content) (acyclic : Acyclic registry source content)
    {names : List String} (trail : Trail registry source content names) (cause : Cause) : ¬ Trouble registry names cause := by
  intro trouble
  cases trouble with
  | unknown distinct absent =>
    obtain ⟨inner, registered⟩ := complete _ (trail.reached _ (List.mem_append_right _ List.mem_cons_self))
    simp [absent] at registered
  | @recursive outer name distinct again =>
    have onward : (outer ++ [name]).Pairwise (TransGen (Leads registry)) :=
      List.isChain_iff_pairwise.mp (trail.leads.imp fun _ _ leads => .single leads)
    have cycle := (List.pairwise_append.mp onward).2.2 name again name List.mem_cons_self
    exact acyclic ⟨name, trail.reached _ (List.mem_append_left _ again), cycle⟩

private theorem distinct_of_untroubled
    (untroubled : ∀ names cause, Trail registry source content names → ¬ Trouble registry names cause)
    {names : List String} (trail : Trail registry source content names) :
    names.Nodup ∧ ∀ name ∈ names, ∃ inner, registry.find? name = some inner := by
  induction names using List.reverseRecOn with
  | nil => simp
  | append_singleton outer name ih =>
    have before : outer.Nodup ∧ ∀ name ∈ outer, ∃ inner, registry.find? name = some inner := by
      cases outer with
      | nil => simp
      | cons first outer => exact ih ⟨trail.starts, trail.leads.left_of_append⟩
    have fresh : name ∉ outer := fun again => untroubled _ _ trail (.recursive before.1 again)
    have distinct : (outer ++ [name]).Nodup := List.concat_eq_append ▸ before.1.concat fresh
    refine ⟨distinct, ?_⟩
    intro other member
    rcases List.mem_append.mp member with earlier | last
    · exact before.2 other earlier
    · cases List.mem_singleton.mp last
      exact Option.ne_none_iff_exists'.mp fun absent => untroubled _ _ trail (.unknown before.1 absent)

/-- Expansion never comes into trouble exactly if all names it can reach are registered and none of them leads back to
itself. -/
theorem untroubled_iff : (∀ arrival cause, Arrives registry source content arrival → ¬ Trouble registry arrival.names cause) ↔
    Complete registry source content ∧ Acyclic registry source content := by
  constructor
  · intro untroubled
    have trails : ∀ names cause, Trail registry source content names → ¬ Trouble registry names cause := by
      intro names cause trail
      obtain ⟨arrival, arrives, rfl⟩ := trail.arrives
      exact untroubled arrival cause arrives
    constructor
    · intro name reached
      obtain ⟨front, trail⟩ := reached.trail
      exact (distinct_of_untroubled trails trail).2 name (by simp)
    · intro ⟨name, reached, cycle⟩
      obtain ⟨front, trail⟩ := reached.trail
      obtain ⟨next, leads, back⟩ := TransGen.head'_iff.mp cycle
      obtain ⟨rest, around, last⟩ := List.exists_isChain_cons_of_relationReflTransGen back
      -- Behind its first occurrence the trail goes once around the cycle, to meet the name again.
      have longer : Trail registry source content (front ++ [name] ++ next :: rest) := by
        obtain ⟨first, same, mentioned⟩ := trail.starts
        refine ⟨⟨first, by rw [List.head?_append, same]; rfl, mentioned⟩, trail.leads.append around ?_⟩
        simpa using leads
      have distinct := (distinct_of_untroubled trails longer).1
      have again : name ∈ next :: rest := last ▸ List.getLast_mem _
      exact List.disjoint_of_nodup_append distinct (by simp) again
  · intro ⟨complete, acyclic⟩ arrival cause arrives
    exact untroubled_of_acyclic complete acyclic arrives.trail cause

end InclusionTrails

namespace Draft
open InclusionTrails (named?)
variable {inclusion : Inclusion} {source : String}

theorem Takes.included {draft next : Draft} {token : Token} (taken : Takes inclusion source draft token next)
    {tag : String × Option Position} (names : named? token = some tag) :
    ∃ tree, (inclusion tag.1 tag.2 source).result = .ok tree := by
  cases taken with
  | inclusion included =>
    cases names
    exact ⟨_, included⟩
  | _ => cases names

theorem included_of_acceptAll {draft final : Draft} {tokens : List Token}
    (taken : draft.acceptAll inclusion source tokens = .ok final) :
    ∀ token ∈ tokens, ∀ tag ∈ named? token, ∃ tree, (inclusion tag.1 tag.2 source).result = .ok tree := by
  induction tokens generalizing draft with
  | nil => simp
  | cons token tokens ih =>
    obtain ⟨next, first, further⟩ := acceptAll_cons_ok.mp taken
    exact List.forall_mem_cons.mpr ⟨fun _ names => first.included names, ih further⟩

end Draft
end Stencil
