import Mathlib
import Stencil.Proofs.EvaluationReach
import Stencil.Proofs.LoopBindings
import Stencil.Proofs.MentionedPaths

/-! What names stand for inside loops. Where an evaluation is depends on the rounds of loops that it is in, and on nothing
before: their names lead to their items, an inner one hiding an outer one of the same name, and all other paths lead where
they lead outside. -/

namespace Stencil

namespace Path

theorem segments_of_plain {name : String} (free : '.' ∉ name.toList) : segments name = [name] := by
  have whole (chars : List Char) (free : '.' ∉ chars) : split chars = [chars] := by
    induction chars with
    | nil => rfl
    | cons c rest ih =>
      obtain ⟨differs, free⟩ : '.' ≠ c ∧ '.' ∉ rest := by simpa using free
      rw [split, if_neg (Ne.symm differs), ih free]
      rfl
  rw [segments, whole _ free, List.map_singleton, String.ofList_toList]

def Begins (name path : String) : Prop := (segments path).head? = some name

end Path

namespace Value

theorem follow_missing (segments : List String) : follow .missing segments = .missing := by
  induction segments with
  | nil => rfl
  | cons segment more ih => exact ih

theorem lookup_binding_self {name : String} (free : '.' ∉ name.toList) (item : Value) :
    (Value.dict [(.text name, item)]).lookup name = item := by
  rw [lookup, Path.segments_of_plain free]
  simp [follow, child, isKey]

theorem lookup_binding_other {name path : String} (other : ¬ Path.Begins name path) (item : Value) :
    (Value.dict [(.text name, item)]).lookup path = .missing := by
  obtain ⟨first, more, same⟩ := Path.segments_cons path
  have differs : name ≠ first := by simpa [Path.Begins, same, eq_comm] using other
  have nothing : (Value.dict [(.text name, item)]).child first = .missing := by simp [child, isKey, differs]
  rw [lookup, same, follow, List.foldl_cons, nothing]
  exact follow_missing more

end Value

namespace Environment
variable {name path : String} {item : Value}

theorem resolve_bind_self (free : '.' ∉ name.toList) (present : item.isMissing = false) (environment : Environment) :
    (environment.bind name item).resolve name = item := by
  rw [bind, resolve_cons, Value.lookup_binding_self free, present]
  rfl

theorem resolve_bind_other (other : ¬ Path.Begins name path) (environment : Environment) (item : Value) :
    (environment.bind name item).resolve path = environment.resolve path := by
  rw [bind, resolve_cons, Value.lookup_binding_other other]
  rfl

/-- The environment in rounds of loops, the innermost first, each with its name and its item. -/
def within (environment : Environment) (rounds : List (String × Value)) : Environment :=
  rounds.foldr (fun (name, item) outer => outer.bind name item) environment

theorem within_append (environment : Environment) (inner outer : List (String × Value)) :
    environment.within (inner ++ outer) = (environment.within outer).within inner := List.foldr_append

/-- Rounds hide nothing from paths that do not begin with their names. -/
theorem resolve_within {rounds : List (String × Value)} (apart : ∀ name ∈ rounds.map Prod.fst, ¬ Path.Begins name path)
    (environment : Environment) : (environment.within rounds).resolve path = environment.resolve path := by
  induction rounds with
  | nil => rfl
  | cons round rounds ih =>
    obtain ⟨name, item⟩ := round
    obtain ⟨other, apart⟩ := List.forall_mem_cons.mp apart
    exact (resolve_bind_other other _ item).trans (ih apart)

theorem resolve_within_bound {inner outer : List (String × Value)} (free : '.' ∉ name.toList)
    (unhidden : name ∉ inner.map Prod.fst) (present : item.isMissing = false) (environment : Environment) :
    (environment.within (inner ++ (name, item) :: outer)).resolve name = item := by
  have apart : ∀ other ∈ inner.map Prod.fst, ¬ Path.Begins other name := by
    intro other member begins
    rw [Path.Begins, Path.segments_of_plain free] at begins
    exact unhidden (Option.some.inj begins ▸ member)
  rw [within_append, resolve_within apart]
  exact resolve_bind_self free present _

end Environment

namespace Node
open Evaluating

def Operator.goesOn : Operator → Value → Bool
  | .equals, _ | .differs, _ => true
  | .and, first => first.truthy
  | .or, first => !first.truthy

/-- How the evaluation of a node comes to a node inside, be it of a condition: the rounds of loops that it is in then, the
innermost first, its environment and what is left of the session. -/
inductive Enters : Environment → Node → Session → List (String × Value) → Environment → Node → Session → Prop
  | here (environment : Environment) (node : Node) (session : Session) :
      Enters environment node session [] environment node session
  | child {environment environment' : Environment} {before after : List Node} {child inner : Node} {text : List Text.CodePoint}
      {session middle final : Session} {rounds : List (String × Value)}
      (passed : evaluateEach environment before session = .ok text middle)
      (inside : Enters environment child middle rounds environment' inner final) :
      Enters environment (.block (before ++ child :: after)) session rounds environment' inner final
  | left {environment environment' : Environment} {operator : Operator} {left right inner : Node}
      {session final : Session} {rounds : List (String × Value)}
      (inside : Enters environment left session rounds environment' inner final) :
      Enters environment (.binary operator left right) session rounds environment' inner final
  | right {environment environment' : Environment} {operator : Operator} {left right inner : Node} {first : Value}
      {session middle final : Session} {rounds : List (String × Value)}
      (passed : evaluate environment left session = .ok first middle) (goes : operator.goesOn first = true)
      (inside : Enters environment right middle rounds environment' inner final) :
      Enters environment (.binary operator left right) session rounds environment' inner final
  | condition {environment environment' : Environment} {condition consequence alternative inner : Node}
      {session final : Session} {rounds : List (String × Value)}
      (inside : Enters environment condition session rounds environment' inner final) :
      Enters environment (.choice condition consequence alternative) session rounds environment' inner final
  | consequence {environment environment' : Environment} {condition consequence alternative inner : Node}
      {decided : Value} {session middle final : Session} {rounds : List (String × Value)}
      (passed : evaluate environment condition session = .ok decided middle) (holds : decided.truthy = true)
      (inside : Enters environment consequence middle rounds environment' inner final) :
      Enters environment (.choice condition consequence alternative) session rounds environment' inner final
  | alternative {environment environment' : Environment} {condition consequence alternative inner : Node}
      {decided : Value} {session middle final : Session} {rounds : List (String × Value)}
      (passed : evaluate environment condition session = .ok decided middle) (fails : decided.truthy = false)
      (inside : Enters environment alternative middle rounds environment' inner final) :
      Enters environment (.choice condition consequence alternative) session rounds environment' inner final
  | round {environment environment' : Environment} {iterable binding : String} {body inner : Node}
      {position : Option Position} {item : Value} {session middle final : Session} {rounds : List (String × Value)}
      (comes : Comes (fun item => evaluate (environment.bind binding item) body) (environment.resolve iterable) session
        item middle)
      (inside : Enters (environment.bind binding item) body middle rounds environment' inner final) :
      Enters environment (.loop iterable binding body position) session (rounds ++ [(binding, item)]) environment' inner final

section
variable {environment environment' : Environment} {node inner : Node} {session moment : Session}
  {rounds : List (String × Value)}

theorem Enters.environment_eq (enters : node.Enters environment session rounds environment' inner moment) :
    environment' = environment.within rounds := by
  induction enters with
  | here => rfl
  | child passed inside ih => exact ih
  | left inside ih => exact ih
  | right passed goes inside ih => exact ih
  | condition inside ih => exact ih
  | consequence passed holds inside ih => exact ih
  | alternative passed fails inside ih => exact ih
  | round comes inside ih =>
    rw [ih, Environment.within_append]
    rfl

theorem Enters.names (enters : node.Enters environment session rounds environment' inner moment) :
    ∀ name ∈ rounds.map Prod.fst, name ∈ node.bindings := by
  induction enters with
  | here => simp
  | child passed inside ih => exact fun name member => mem_bindingsEach.mpr ⟨_, by simp, ih name member⟩
  | left inside ih => exact fun name member => List.mem_append_left _ (ih name member)
  | right passed goes inside ih => exact fun name member => List.mem_append_right _ (ih name member)
  | condition inside ih => exact fun name member => List.mem_append_left _ (ih name member)
  | consequence passed holds inside ih =>
    exact fun name member => List.mem_append_right _ (List.mem_append_left _ (ih name member))
  | alternative passed fails inside ih =>
    exact fun name member => List.mem_append_right _ (List.mem_append_right _ (ih name member))
  | round comes inside ih =>
    intro name member
    rw [List.map_append, List.mem_append] at member
    rcases member with within | own
    · exact List.mem_cons_of_mem _ (ih name within)
    · rw [List.mem_singleton.mp own]
      exact List.mem_cons_self

theorem Enters.trans {environment'' : Environment} {within : Node} {rounds' : List (String × Value)} {final : Session}
    (enters : node.Enters environment session rounds environment' inner moment)
    (further : inner.Enters environment' moment rounds' environment'' within final) :
    node.Enters environment session (rounds' ++ rounds) environment'' within final := by
  induction enters with
  | here => rwa [List.append_nil]
  | child passed inside ih => exact .child passed (ih further)
  | left inside ih => exact .left (ih further)
  | right passed goes inside ih => exact .right passed goes (ih further)
  | condition inside ih => exact .condition (ih further)
  | consequence passed holds inside ih => exact .consequence passed holds (ih further)
  | alternative passed fails inside ih => exact .alternative passed fails (ih further)
  | round comes inside ih =>
    rw [← List.append_assoc]
    exact .round comes (ih further)

theorem enters_of_reaches {within : Bool} (reaches : Reaches environment node session within environment' inner moment) :
    ∃ rounds, node.Enters environment session rounds environment' inner moment := by
  induction reaches with
  | here => exact ⟨[], .here ..⟩
  | child passed inside ih => exact ih.imp fun _ => .child passed
  | consequence passed holds inside ih => exact ih.imp fun _ => .consequence passed holds
  | alternative passed fails inside ih => exact ih.imp fun _ => .alternative passed fails
  | round comes inside ih =>
    obtain ⟨rounds, enters⟩ := ih
    exact ⟨_, .round comes enters⟩

/-- What fails where an evaluation enters it fails the whole. -/
theorem Enters.fails {failure : RenderFailure} {after : Session}
    (enters : node.Enters environment session rounds environment' inner moment)
    (failed : inner.evaluate environment' moment = .error failure after) :
    node.evaluate environment session = .error failure after := by
  induction enters with
  | here => exact failed
  | child passed inside ih =>
    exact evaluate_block_error_iff.mpr (evaluateEach_error_iff.mpr ⟨_, _, _, _, _, rfl, passed, ih failed⟩)
  | @left _ _ operator _ _ _ _ _ _ inside ih => cases operator <;> exact then_error_iff.mpr (.inl (ih failed))
  | @right _ _ operator _ _ _ first _ _ _ _ passed goes inside ih =>
    have stopped := ih failed
    cases operator with
    | equals | differs => exact then_error_iff.mpr (.inr ⟨_, _, passed, then_error_iff.mpr (.inl stopped)⟩)
    | and =>
      refine then_error_iff.mpr (.inr ⟨_, _, passed, ?_⟩)
      rw [if_pos (show first.truthy = true from goes)]
      exact then_error_iff.mpr (.inl stopped)
    | or =>
      refine then_error_iff.mpr (.inr ⟨_, _, passed, ?_⟩)
      rw [if_neg (by simpa [Operator.goesOn] using goes)]
      exact then_error_iff.mpr (.inl stopped)
  | condition inside ih => exact then_error_iff.mpr (.inl (ih failed))
  | consequence passed holds inside ih =>
    exact then_error_iff.mpr (.inr ⟨_, _, passed, by simpa only [holds, if_true] using ih failed⟩)
  | alternative passed fails inside ih =>
    exact then_error_iff.mpr (.inr ⟨_, _, passed, by simpa only [fails, Bool.false_eq_true, if_false] using ih failed⟩)
  | round comes inside ih =>
    rw [evaluate, runLoop, then_error_iff, overAll_error_iff]
    exact .inl (.inr ⟨_, _, comes, ih failed⟩)

/-- Whatever a successful evaluation enters succeeds there. -/
theorem Enters.succeeds {value : Value} {done : Session}
    (enters : node.Enters environment session rounds environment' inner moment)
    (evaluated : node.evaluate environment session = .ok value done) :
    ∃ part later, inner.evaluate environment' moment = .ok part later := by
  cases ended : inner.evaluate environment' moment with
  | ok part later => exact ⟨part, later, rfl⟩
  | error failure after => cases evaluated.symm.trans (enters.fails ended)

def looked? : Node → Option String
  | .variable path => some path
  | .loop iterable _ _ _ => some iterable
  | _ => none

/-- The other environment tells the same of whatever an evaluation enters and looks up. -/
def Tells (environment : Environment) (node : Node) (session : Session) (other : Environment) : Prop :=
  ∀ rounds environment' inner moment path, node.Enters environment session rounds environment' inner moment →
    inner.looked? = some path → (other.within rounds).resolve path = environment'.resolve path

theorem Enters.behind {child : Node} {children : List Node} {value : Value} {middle : Session} {path : String}
    (passed : child.evaluate environment session = .ok value middle)
    (enters : (block children).Enters environment middle rounds environment' inner moment) (looks : inner.looked? = some path) :
    (block (child :: children)).Enters environment session rounds environment' inner moment := by
  cases enters with
  | here => cases looks
  | @child _ _ before _ _ _ text _ _ _ _ passed' inside =>
    have both : evaluateEach environment (child :: before) session = .ok (value.plain ++ text) _ :=
      then_ok_iff.mpr ⟨value, middle, passed, then_ok_iff.mpr ⟨text, _, passed', rfl⟩⟩
    exact .child both inside

end

mutual
/-- An evaluation looks up nothing but what it enters. In an environment that tells the same of all that, it comes to the
same. -/
theorem evaluate_of_tells : (node : Node) → ∀ {environment other : Environment} {session : Session},
    Tells environment node session other → node.evaluate other session = node.evaluate environment session
  | .block children, _, _, _, tells => then_congr (evaluateEach_of_tells children tells) fun _ _ _ => rfl
  | .constant _ _, _, _, _, _ => rfl
  | .stray _, _, _, _, _ => rfl
  | .variable path, environment, other, session, tells => by
    have same : other.resolve path = environment.resolve path := tells _ _ _ _ path (.here ..) rfl
    simp only [evaluate, same]
  | .binary operator left right, environment, other, session, tells => by
    have one := evaluate_of_tells left fun _ _ _ _ _ enters => tells _ _ _ _ _ (.left enters)
    have two {first : Value} {middle : Session} (passed : left.evaluate environment session = .ok first middle)
        (goes : operator.goesOn first = true) : right.evaluate other middle = right.evaluate environment middle :=
      evaluate_of_tells right fun _ _ _ _ _ enters => tells _ _ _ _ _ (.right passed goes enters)
    cases operator with
    | equals | differs => exact then_congr one fun first middle passed => then_congr (two passed rfl) fun _ _ _ => rfl
    | and =>
      refine then_congr one fun first middle passed => ?_
      by_cases holds : first.truthy
      · rw [if_pos holds, if_pos holds]
        exact then_congr (two passed holds) fun _ _ _ => rfl
      · rw [if_neg holds, if_neg holds]
    | or =>
      refine then_congr one fun first middle passed => ?_
      by_cases holds : first.truthy
      · rw [if_pos holds, if_pos holds]
      · rw [if_neg holds, if_neg holds]
        exact then_congr (two passed (by simpa [Operator.goesOn] using holds)) fun _ _ _ => rfl
  | .loop iterable binding body position, environment, other, session, tells => by
    have same : other.resolve iterable = environment.resolve iterable := tells _ _ _ _ iterable (.here ..) rfl
    rw [evaluate, evaluate, same]
    refine runLoop_congr fun item begun comes => evaluate_of_tells body ?_
    intro rounds environment' inner moment path enters looks
    rw [← tells _ _ _ _ path (.round comes enters) looks, Environment.within_append]
    rfl
  | .choice condition consequence alternative, environment, other, session, tells => by
    have decides := evaluate_of_tells condition fun _ _ _ _ _ enters => tells _ _ _ _ _ (.condition enters)
    refine then_congr decides fun decided middle passed => ?_
    by_cases holds : decided.truthy
    · rw [if_pos holds, if_pos holds]
      exact evaluate_of_tells consequence fun _ _ _ _ _ enters => tells _ _ _ _ _ (.consequence passed holds enters)
    · rw [if_neg holds, if_neg holds]
      exact evaluate_of_tells alternative fun _ _ _ _ _ enters =>
        tells _ _ _ _ _ (.alternative passed (Bool.eq_false_iff.mpr holds) enters)

theorem evaluateEach_of_tells : (children : List Node) → ∀ {environment other : Environment} {session : Session},
    Tells environment (.block children) session other →
      evaluateEach other children session = evaluateEach environment children session
  | [], _, _, _, _ => rfl
  | child :: children, environment, other, session, tells => by
    have nothing : evaluateEach environment [] session = .ok [] session := rfl
    have first := evaluate_of_tells child fun _ _ _ _ _ enters => tells _ _ _ _ _ (.child nothing enters)
    refine then_congr first fun value middle passed => then_congr (evaluateEach_of_tells children ?_) fun _ _ _ => rfl
    exact fun _ _ _ _ _ enters looks => tells _ _ _ _ _ (enters.behind passed looks) looks
end

end Node

namespace Template
open Node Evaluating
open Environment (forRender)

/-- Loops of a compiled template bind names without points. So the name of a round leads to its item wherever no round inside
that one has the same name, and paths that begin with the name of no round lead where they lead outside. Every round enters
the body of its loop. What stands after a loop is evaluated in the environment that the loop was evaluated in. -/
theorem rounds_resolve {content : String} {partials : Registry} {globals : Value} {template : Template}
    (compiled : (compile content partials globals).result = .ok template) :
    (∀ name ∈ template.root.bindings, name ≠ "" ∧ '.' ∉ name.toList) ∧
      ∀ data session,
        (∀ within environment node moment,
          Reaches (forRender data globals) template.root session within environment node moment →
            ∃ rounds, template.root.Enters (forRender data globals) session rounds environment node moment) ∧
        ∀ rounds environment node moment,
          template.root.Enters (forRender data globals) session rounds environment node moment →
          (∀ inner name item outer, rounds = inner ++ (name, item) :: outer → name ∉ inner.map Prod.fst →
            item.isMissing = false → environment.resolve name = item) ∧
          (∀ path, (∀ name ∈ rounds.map Prod.fst, ¬ Path.Begins name path) →
            environment.resolve path = (forRender data globals).resolve path) ∧
          (∀ iterable binding body place item begun, node = .loop iterable binding body place →
            Comes (fun item => body.evaluate (environment.bind binding item)) (environment.resolve iterable) moment item begun →
            template.root.Enters (forRender data globals) session ((binding, item) :: rounds)
              (environment.bind binding item) body begun) ∧
          ∀ before iterable binding body place between next behind text later,
            node = .block (before ++ .loop iterable binding body place :: between ++ next :: behind) →
            evaluateEach environment (before ++ .loop iterable binding body place :: between) moment = .ok text later →
            template.root.Enters (forRender data globals) session rounds environment next later := by
  obtain ⟨children, parsed, rfl⟩ := compile_ok_iff.mp compiled
  have plain := plain_bindings_of_parse parsed
  refine ⟨plain, ?_⟩
  intro data session
  refine ⟨fun _ _ _ _ => enters_of_reaches, ?_⟩
  intro rounds environment node moment enters
  have same := enters.environment_eq
  refine ⟨?_, ?_, ?_, ?_⟩
  · intro inner name item outer split unhidden present
    have bound := enters.names name (by simp [split])
    rw [same, split]
    exact Environment.resolve_within_bound (plain name bound).2 unhidden present _
  · intro path apart
    rw [same]
    exact Environment.resolve_within apart _
  · rintro iterable binding body place item begun rfl comes
    exact enters.trans (.round comes (.here ..))
  · rintro before iterable binding body place between next behind text later rfl passed
    exact enters.trans (.child passed (.here ..))

def shadowing : String :=
  "\x7b% for xs as x %\x7d\x7b% for x as x %\x7d\x7b\x7bx\x7d\x7d\x7b% end %\x7d\x7b\x7bx\x7d\x7d\x7b% end %\x7d"

private theorem shadowing_read :
    Token.read? (.into rootName shadowing 0) = .ok (some ⟨some ⟨1, 0⟩, .loop "xs" "x"⟩) (.into rootName shadowing 17) ∧
      Token.read? (.into rootName shadowing 17) = .ok (some ⟨some ⟨1, 17⟩, .loop "x" "x"⟩) (.into rootName shadowing 33) ∧
      Token.read? (.into rootName shadowing 33) = .ok (some ⟨some ⟨1, 33⟩, .variable "x"⟩) (.into rootName shadowing 38) ∧
      Token.read? (.into rootName shadowing 38) = .ok (some ⟨some ⟨1, 38⟩, .close⟩) (.into rootName shadowing 47) ∧
      Token.read? (.into rootName shadowing 47) = .ok (some ⟨some ⟨1, 47⟩, .variable "x"⟩) (.into rootName shadowing 52) ∧
      Token.read? (.into rootName shadowing 52) = .ok (some ⟨some ⟨1, 52⟩, .close⟩) (.into rootName shadowing 61) ∧
      Token.read? (.into rootName shadowing 61) = .ok none (.into rootName shadowing 61) := by
  refine ⟨?_, ?_, ?_, ?_, ?_, ?_, ?_⟩ <;> cbv

private theorem shadowing_tokens : tokensFrom (.into rootName shadowing 0) =
    ([⟨some ⟨1, 0⟩, .loop "xs" "x"⟩, ⟨some ⟨1, 17⟩, .loop "x" "x"⟩, ⟨some ⟨1, 33⟩, .variable "x"⟩,
      ⟨some ⟨1, 38⟩, .close⟩, ⟨some ⟨1, 47⟩, .variable "x"⟩, ⟨some ⟨1, 52⟩, .close⟩], none,
      ⟨.into rootName shadowing 61, none⟩) := by
  obtain ⟨outer, inner, hidden, close, again, close', ended⟩ := shadowing_read
  rw [tokensFrom_token outer, tokensFrom_token inner, tokensFrom_token hidden, tokensFrom_token close,
    tokensFrom_token again, tokensFrom_token close', tokensFrom_done ended]

def shadowingInner : Node := .loop "x" "x" (.block [.variable "x"]) (some ⟨1, 17⟩)

def shadowingTree : Node := .block [.loop "xs" "x" (.block [shadowingInner, .variable "x"]) (some ⟨1, 0⟩)]

private theorem shadowing_compiled :
    (compile shadowing .empty (.dict [])).result = .ok ⟨shadowingTree, .empty, .dict []⟩ :=
  compile_ok_iff.mpr ⟨_, parse_of_tokens shadowing_tokens rfl, rfl⟩

def nestedData : Value := .dict [(.text "xs", .list [.list [.text "a"]])]

/-- The inner loop goes over what its own name leads to outside it, and hides that from its body only. -/
theorem rounds_resolve_shadowing :
    (compile shadowing .empty (.dict [])).result = .ok ⟨shadowingTree, .empty, .dict []⟩ ∧
      ∃ inside outside later,
        shadowingTree.Enters (forRender nestedData (.dict [])) .empty [("x", .text "a"), ("x", .list [.text "a"])]
          inside (.block [.variable "x"]) .empty ∧
        inside.resolve "x" = .text "a" ∧
        shadowingTree.Enters (forRender nestedData (.dict [])) .empty [("x", .list [.text "a"])]
          outside (.variable "x") later ∧
        outside.resolve "x" = .list [.text "a"] := by
  obtain ⟨_, resolves⟩ := rounds_resolve shadowing_compiled
  obtain ⟨_, resolves⟩ := resolves nestedData .empty
  have nothing (environment : Environment) : evaluateEach environment [] .empty = .ok [] .empty := rfl
  have body : shadowingTree.Enters (forRender nestedData (.dict [])) .empty [("x", .list [.text "a"])]
      ((forRender nestedData (.dict [])).bind "x" (.list [.text "a"])) (.block [shadowingInner, .variable "x"]) .empty :=
    .child (nothing _) (.round (.list (.now ..)) (.here ..))
  have loop := body.trans (.child (nothing _) (.here ..))
  obtain ⟨outer, _, _, behind⟩ := resolves _ _ _ _ body
  obtain ⟨_, _, entered, _⟩ := resolves _ _ _ _ loop
  have inside := entered "x" "x" _ _ (.text "a") _ rfl (.list (.now ..))
  obtain ⟨own, _⟩ := resolves _ _ _ _ inside
  have after := behind [] "x" "x" (.block [.variable "x"]) (some ⟨1, 17⟩) [] (.variable "x") [] (Text.points "a") _ rfl rfl
  exact ⟨shadowing_compiled, _, _, _, inside, own [] "x" _ _ rfl (by simp) rfl, after,
    outer [] "x" _ _ rfl (by simp) rfl⟩

end Template
end Stencil
