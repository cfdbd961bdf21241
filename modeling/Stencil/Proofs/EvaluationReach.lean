import Stencil.Evaluation
import Stencil.Proofs.TreeShape

/-! How evaluations go through a tree. An evaluation comes to a node inside after all that stands before it has succeeded;
what happens there is what happens to the whole. A tree in shape fails only at a loop over something that holds no items. -/

namespace Stencil
open Text

namespace Value

def iterable : Value → Bool
  | .list _ | .tuple _ | .stream _ => true
  | _ => false

end Value

namespace Evaluating
variable {α β : Type} {step : Evaluating α} {next : α → Evaluating β} {session after : Session}

theorem then_ok_iff {value : β} : (step >>= next) session = .ok value after ↔
    ∃ first middle, step session = .ok first middle ∧ next first middle = .ok value after := by
  change EStateM.bind step next session = _ ↔ _
  cases taken : step session <;> simp [EStateM.bind, taken, and_assoc]

theorem then_error_iff {failure : RenderFailure} : (step >>= next) session = .error failure after ↔
    step session = .error failure after ∨
      ∃ first middle, step session = .ok first middle ∧ next first middle = .error failure after := by
  change EStateM.bind step next session = _ ↔ _
  cases taken : step session <;> simp [EStateM.bind, taken, and_assoc]

theorem then_congr {step' : Evaluating α} {next' : α → Evaluating β} (first : step' session = step session)
    (rest : ∀ value middle, step session = .ok value middle → next' value middle = next value middle) :
    (step' >>= next') session = (step >>= next) session := by
  change EStateM.bind step' next' session = EStateM.bind step next session
  rw [EStateM.bind, EStateM.bind, first]
  cases taken : step session with
  | ok value middle => exact rest value middle taken
  | error failure middle => rfl

/-- How rounds over items come to one of them, and what of the session is left then. -/
inductive InItems (round : Value → Evaluating Value) : List Value → Session → Value → Session → Prop
  | now (item : Value) (items : List Value) (session : Session) : InItems round (item :: items) session item session
  | later {item part next : Value} {items : List Value} {session middle after : Session}
      (passed : round item session = .ok part middle) (comes : InItems round items middle next after) :
      InItems round (item :: items) session next after

/-- How rounds over a stream, so many at most, come to a value that is drawn from it. -/
inductive InStream (round : Value → Evaluating Value) (id : Nat) : Nat → Session → Value → Session → Prop
  | now {rounds : Nat} {item : Value} {session middle : Session} (drawn : draw id session = .ok (some item) middle) :
      InStream round id (rounds + 1) session item middle
  | later {rounds : Nat} {item part next : Value} {session middle between after : Session}
      (drawn : draw id session = .ok (some item) middle) (passed : round item middle = .ok part between)
      (comes : InStream round id rounds between next after) : InStream round id (rounds + 1) session next after

inductive Comes (round : Value → Evaluating Value) : Value → Session → Value → Session → Prop
  | list {items : List Value} {session after : Session} {item : Value} (comes : InItems round items session item after) :
      Comes round (.list items) session item after
  | tuple {items : List Value} {session after : Session} {item : Value} (comes : InItems round items session item after) :
      Comes round (.tuple items) session item after
  | stream {id : Nat} {session after : Session} {item : Value}
      (comes : InStream round id (session.remaining id).length session item after) :
      Comes round (.stream id) session item after

section
variable {round : Value → Evaluating Value} {failure : RenderFailure}

theorem overItems_error_iff {items : List Value} {session after : Session} :
    overItems round items session = .error failure after ↔
      ∃ item middle, InItems round items session item middle ∧ round item middle = .error failure after := by
  constructor
  · intro failed
    induction items generalizing session with
    | nil => cases failed
    | cons item items ih =>
      rw [overItems, then_error_iff] at failed
      rcases failed with failed | ⟨part, middle, passed, failed⟩
      · exact ⟨item, session, .now item items session, failed⟩
      · rw [then_error_iff] at failed
        rcases failed with failed | ⟨parts, between, done, failed⟩
        · obtain ⟨culprit, there, comes, stopped⟩ := ih failed
          exact ⟨culprit, there, .later passed comes, stopped⟩
        · cases failed
  · intro ⟨culprit, there, comes, stopped⟩
    induction comes with
    | now item items session => exact then_error_iff.mpr (.inl stopped)
    | later passed comes ih =>
      apply then_error_iff.mpr
      refine .inr ⟨_, _, passed, ?_⟩
      apply then_error_iff.mpr
      exact .inl (ih stopped)

theorem draw_ok (id : Nat) (session : Session) : ∃ item after, draw id session = .ok item after := by
  cases held : session.remaining id with
  | nil => exact ⟨none, session, then_ok_iff.mpr ⟨session, session, rfl, by simp only [held]; rfl⟩⟩
  | cons value rest => exact ⟨some value, _, then_ok_iff.mpr ⟨session, session, rfl, by simp only [held]; rfl⟩⟩

theorem overStream_error_iff {id rounds : Nat} {session after : Session} :
    overStream round id rounds session = .error failure after ↔
      ∃ item middle, InStream round id rounds session item middle ∧ round item middle = .error failure after := by
  constructor
  · intro failed
    induction rounds generalizing session with
    | zero => cases failed
    | succ rounds ih =>
      obtain ⟨found, middle, drawn⟩ := draw_ok id session
      rw [overStream, then_error_iff] at failed
      rcases failed with failed | ⟨_, _, same, failed⟩
      · rw [drawn] at failed
        cases failed
      rw [drawn] at same
      cases same
      cases found with
      | none => cases failed
      | some item =>
        rw [then_error_iff] at failed
        rcases failed with failed | ⟨part, between, passed, failed⟩
        · exact ⟨item, middle, .now drawn, failed⟩
        · rw [then_error_iff] at failed
          rcases failed with failed | ⟨parts, last, done, failed⟩
          · obtain ⟨culprit, there, comes, stopped⟩ := ih failed
            exact ⟨culprit, there, .later drawn passed comes, stopped⟩
          · cases failed
  · intro ⟨culprit, there, comes, stopped⟩
    induction comes with
    | now drawn =>
      apply then_error_iff.mpr
      refine .inr ⟨_, _, drawn, ?_⟩
      apply then_error_iff.mpr
      exact .inl stopped
    | later drawn passed comes ih =>
      apply then_error_iff.mpr
      refine .inr ⟨_, _, drawn, ?_⟩
      apply then_error_iff.mpr
      refine .inr ⟨_, _, passed, ?_⟩
      apply then_error_iff.mpr
      exact .inl (ih stopped)

theorem comes_list_iff {items : List Value} {session after : Session} {item : Value} :
    Comes round (.list items) session item after ↔ InItems round items session item after := by
  constructor
  · intro comes
    cases comes
    assumption
  · exact .list

theorem comes_tuple_iff {items : List Value} {session after : Session} {item : Value} :
    Comes round (.tuple items) session item after ↔ InItems round items session item after := by
  constructor
  · intro comes
    cases comes
    assumption
  · exact .tuple

theorem comes_stream_iff {id : Nat} {session after : Session} {item : Value} : Comes round (.stream id) session item after ↔
    InStream round id (session.remaining id).length session item after := by
  constructor
  · intro comes
    cases comes
    assumption
  · exact .stream

theorem iterable_of_comes {source item : Value} {session after : Session} (comes : Comes round source session item after) :
    source.iterable = true := by
  cases comes <;> rfl

theorem overAll_error_iff {path : String} {position : Option Position} {source : Value} {session after : Session} :
    overAll path position round source session = .error failure after ↔
      (source.iterable = false ∧ failure = .notIterable path position ∧ session = after) ∨
        ∃ item middle, Comes round source session item middle ∧ round item middle = .error failure after := by
  cases source with
  | list items =>
    rw [overAll, overItems_error_iff, or_iff_right (by simp [Value.iterable])]
    simp only [comes_list_iff]
  | tuple items =>
    rw [overAll, overItems_error_iff, or_iff_right (by simp [Value.iterable])]
    simp only [comes_tuple_iff]
  | stream id =>
    have looked : overAll path position round (.stream id) session =
        overStream round id (session.remaining id).length session := rfl
    rw [looked, overStream_error_iff, or_iff_right (by simp [Value.iterable])]
    simp only [comes_stream_iff]
  | _ =>
    rw [or_iff_left]
    · change EStateM.Result.error _ _ = _ ↔ _
      simp [Value.iterable, eq_comm]
    · rintro ⟨item, middle, comes, _⟩
      cases iterable_of_comes comes

theorem overItems_congr {round' : Value → Evaluating Value} {items : List Value} {session : Session}
    (same : ∀ item begun, InItems round items session item begun → round' item begun = round item begun) :
    overItems round' items session = overItems round items session := by
  induction items generalizing session with
  | nil => rfl
  | cons item items ih =>
    refine then_congr (same item session (.now ..)) fun part middle passed => then_congr (ih ?_) fun _ _ _ => rfl
    exact fun next begun comes => same next begun (.later passed comes)

theorem overStream_congr {round' : Value → Evaluating Value} {id count : Nat} {session : Session}
    (same : ∀ item begun, InStream round id count session item begun → round' item begun = round item begun) :
    overStream round' id count session = overStream round id count session := by
  induction count generalizing session with
  | zero => rfl
  | succ count ih =>
    refine then_congr rfl fun found middle drawn => ?_
    cases found with
    | none => rfl
    | some item =>
      refine then_congr (same item middle (.now drawn)) fun part between passed => then_congr (ih ?_) fun _ _ _ => rfl
      exact fun next begun comes => same next begun (.later drawn passed comes)

/-- What a loop makes of its rounds depends only on those that come. -/
theorem runLoop_congr {round' : Value → Evaluating Value} {path : String} {position : Option Position} {source : Value}
    {session : Session} (same : ∀ item begun, Comes round source session item begun → round' item begun = round item begun) :
    runLoop path position round' source session = runLoop path position round source session := by
  refine then_congr ?_ fun _ _ _ => rfl
  cases source with
  | list items => exact overItems_congr fun item begun comes => same item begun (.list comes)
  | tuple items => exact overItems_congr fun item begun comes => same item begun (.tuple comes)
  | stream id => exact overStream_congr fun item begun comes => same item begun (.stream comes)
  | _ => rfl

/-- Whatever a loop collects is what one of its rounds gave. -/
theorem parts_of_overItems {items parts : List Value} {session after : Session}
    (done : overItems round items session = .ok parts after) :
    ∀ part ∈ parts, ∃ item before behind, round item before = .ok part behind := by
  induction items generalizing session parts with
  | nil =>
    cases done
    simp
  | cons item items ih =>
    obtain ⟨part, middle, passed, done⟩ := then_ok_iff.mp done
    obtain ⟨others, between, rest, done⟩ := then_ok_iff.mp done
    cases done
    exact List.forall_mem_cons.mpr ⟨⟨item, session, middle, passed⟩, ih rest⟩

theorem parts_of_overStream {id rounds : Nat} {parts : List Value} {session after : Session}
    (done : overStream round id rounds session = .ok parts after) :
    ∀ part ∈ parts, ∃ item before behind, round item before = .ok part behind := by
  induction rounds generalizing session parts with
  | zero =>
    cases done
    simp
  | succ rounds ih =>
    obtain ⟨found, middle, drawn, done⟩ := then_ok_iff.mp done
    cases found with
    | none =>
      cases done
      simp
    | some item =>
      obtain ⟨part, between, passed, done⟩ := then_ok_iff.mp done
      obtain ⟨others, last, rest, done⟩ := then_ok_iff.mp done
      cases done
      exact List.forall_mem_cons.mpr ⟨⟨item, middle, between, passed⟩, ih rest⟩

theorem parts_of_overAll {path : String} {position : Option Position} {source : Value} {parts : List Value}
    {session after : Session} (done : overAll path position round source session = .ok parts after) :
    ∀ part ∈ parts, ∃ item before behind, round item before = .ok part behind := by
  cases source with
  | list items => exact parts_of_overItems done
  | tuple items => exact parts_of_overItems done
  | stream id => exact parts_of_overStream (show overStream round id (session.remaining id).length session = _ from done)
  | _ => cases done

theorem joinRounds_texts {parts : List Value} (texts : ∀ part ∈ parts, ∃ content, part = .text content) (index : Nat) :
    ∃ joined, ∀ session, joinRounds index parts session = .ok joined session := by
  induction parts generalizing index with
  | nil => exact ⟨[], fun _ => rfl⟩
  | cons part parts ih =>
    obtain ⟨⟨content, rfl⟩, others⟩ := List.forall_mem_cons.mp texts
    obtain ⟨joined, same⟩ := ih others (index + 1)
    exact ⟨content ++ joined, fun session => then_ok_iff.mpr ⟨joined, session, same session, rfl⟩⟩

/-- A loop whose rounds give texts fails only where a round does, or where there are none to go through. -/
theorem runLoop_error_iff {path : String} {position : Option Position} {source : Value} {session after : Session}
    (texts : ∀ item before part behind, round item before = .ok part behind → ∃ content, part = .text content) :
    runLoop path position round source session = .error failure after ↔
      overAll path position round source session = .error failure after := by
  rw [runLoop, then_error_iff, or_iff_left]
  intro ⟨parts, middle, done, failed⟩
  obtain ⟨joined, same⟩ := joinRounds_texts (fun part member => by
    obtain ⟨item, before, behind, gave⟩ := parts_of_overAll done part member
    exact texts item before part behind gave) 0
  obtain failed | ⟨_, between, _, failed⟩ := then_error_iff.mp failed
  · cases failed
  obtain failed | ⟨_, _, _, failed⟩ := then_error_iff.mp failed
  · rw [same] at failed
    cases failed
  · cases failed

end

end Evaluating

namespace Node
open Evaluating

/-- How the evaluation of a node comes to a node inside: whether a partial stands around that, in which environment it is
evaluated and what is left of the session then. -/
inductive Reaches : Environment → Node → Session → Bool → Environment → Node → Session → Prop
  | here (environment : Environment) (node : Node) (session : Session) :
      Reaches environment node session false environment node session
  | child {environment environment' : Environment} {before after : List Node} {child inner : Node} {text : List CodePoint}
      {session middle final : Session} {within : Bool}
      (passed : evaluateEach environment before session = .ok text middle)
      (inside : Reaches environment child middle within environment' inner final) :
      Reaches environment (.block (before ++ child :: after)) session (within || child.isBlock) environment' inner final
  | consequence {environment environment' : Environment} {condition consequence alternative inner : Node}
      {decided : Value} {session middle final : Session} {within : Bool}
      (passed : evaluate environment condition session = .ok decided middle) (holds : decided.truthy = true)
      (inside : Reaches environment consequence middle within environment' inner final) :
      Reaches environment (.choice condition consequence alternative) session within environment' inner final
  | alternative {environment environment' : Environment} {condition consequence alternative inner : Node}
      {decided : Value} {session middle final : Session} {within : Bool}
      (passed : evaluate environment condition session = .ok decided middle) (fails : decided.truthy = false)
      (inside : Reaches environment alternative middle within environment' inner final) :
      Reaches environment (.choice condition consequence alternative) session within environment' inner final
  | round {environment environment' : Environment} {iterable binding : String} {body inner : Node}
      {position : Option Position} {item : Value} {session middle final : Session} {within : Bool}
      (comes : Comes (fun item => evaluate (environment.bind binding item) body) (environment.resolve iterable) session
        item middle)
      (inside : Reaches (environment.bind binding item) body middle within environment' inner final) :
      Reaches environment (.loop iterable binding body position) session within environment' inner final

/-- The evaluation of a node comes to a loop over a path that leads to nothing with items, and ends there. -/
def StopsAt (environment : Environment) (node : Node) (session : Session) (within : Bool) (path : String)
    (place : Option Position) (after : Session) : Prop :=
  ∃ environment' binding body, Reaches environment node session within environment' (.loop path binding body place) after ∧
    (environment'.resolve path).iterable = false

section
variable {environment : Environment} {session after : Session} {failure : RenderFailure}

theorem evaluate_block_error_iff {children : List Node} :
    evaluate environment (.block children) session = .error failure after ↔
      evaluateEach environment children session = .error failure after := by
  rw [evaluate, then_error_iff, or_iff_left]
  rintro ⟨text, middle, _, failed⟩
  cases failed

theorem evaluate_block_ok_iff {children : List Node} {value : Value} :
    evaluate environment (.block children) session = .ok value after ↔
      ∃ text, value = .text text ∧ evaluateEach environment children session = .ok text after := by
  rw [evaluate, then_ok_iff]
  constructor
  · rintro ⟨text, middle, done, same⟩
    cases same
    exact ⟨text, rfl, done⟩
  · rintro ⟨text, same, done⟩
    subst same
    exact ⟨text, after, done, rfl⟩

theorem evaluateEach_append (environment : Environment) (first rest : List Node) :
    evaluateEach environment (first ++ rest) = do
      let text ← evaluateEach environment first
      return text ++ (← evaluateEach environment rest) := by
  induction first with
  | nil => simp only [List.nil_append, evaluateEach, pure_bind, bind_pure]
  | cons child children ih =>
    simp only [List.cons_append, evaluateEach, ih, bind_assoc, pure_bind, List.append_assoc]

theorem evaluateEach_error_iff {children : List Node} :
    evaluateEach environment children session = .error failure after ↔
      ∃ before child behind text middle, children = before ++ child :: behind ∧
        evaluateEach environment before session = .ok text middle ∧
        evaluate environment child middle = .error failure after := by
  constructor
  · intro failed
    induction children generalizing session with
    | nil => cases failed
    | cons child children ih =>
      rw [evaluateEach, then_error_iff] at failed
      rcases failed with failed | ⟨value, middle, passed, failed⟩
      · exact ⟨[], child, children, [], session, rfl, rfl, failed⟩
      · rw [then_error_iff] at failed
        rcases failed with failed | ⟨_, _, _, failed⟩
        · obtain ⟨before, culprit, behind, text, between, rfl, done, stopped⟩ := ih failed
          refine ⟨child :: before, culprit, behind, value.plain ++ text, between, rfl, ?_, stopped⟩
          exact then_ok_iff.mpr ⟨value, middle, passed, then_ok_iff.mpr ⟨text, between, done, rfl⟩⟩
        · cases failed
  · rintro ⟨before, culprit, behind, text, middle, same, done, stopped⟩
    subst same
    induction before generalizing session text with
    | nil =>
      cases done
      exact then_error_iff.mpr (.inl stopped)
    | cons child before ih =>
      obtain ⟨value, between, passed, done⟩ := then_ok_iff.mp done
      obtain ⟨text, last, rest, same⟩ := then_ok_iff.mp done
      cases same
      apply then_error_iff.mpr
      refine .inr ⟨value, between, passed, ?_⟩
      apply then_error_iff.mpr
      exact .inl (ih text rest)

/-- What decides a choice has a value and touches no stream. -/
theorem evaluate_decides (environment : Environment) : (condition : Node) → condition.Decides →
    ∃ value, evaluate environment condition = pure value
  | .constant _ value, _ => ⟨value, by rw [evaluate]⟩
  | .variable path, _ => ⟨environment.resolve path, by rw [evaluate]⟩
  | .binary operator left right, decides => by
    obtain ⟨first, one⟩ := evaluate_decides environment left decides.1
    obtain ⟨second, two⟩ := evaluate_decides environment right decides.2
    cases operator with
    | equals =>
      simp only [evaluate, one, two, pure_bind]
      exact ⟨_, rfl⟩
    | differs =>
      simp only [evaluate, one, two, pure_bind]
      exact ⟨_, rfl⟩
    | and =>
      cases holds : first.truthy <;> simp only [evaluate, one, two, holds, pure_bind] <;> exact ⟨_, rfl⟩
    | or =>
      cases holds : first.truthy <;> simp only [evaluate, one, two, holds, pure_bind] <;> exact ⟨_, rfl⟩

theorem evaluate_error_of_reaches {environment' : Environment} {node inner : Node} {middle : Session} {within : Bool}
    (reaches : Reaches environment node session within environment' inner middle)
    (failed : evaluate environment' inner middle = .error failure after) :
    evaluate environment node session = .error failure after := by
  induction reaches with
  | here => exact failed
  | child passed inside ih =>
    apply evaluate_block_error_iff.mpr
    apply evaluateEach_error_iff.mpr
    exact ⟨_, _, _, _, _, rfl, passed, ih failed⟩
  | consequence passed holds inside ih =>
    rw [evaluate, then_error_iff]
    exact .inr ⟨_, _, passed, by simpa only [holds, if_true] using ih failed⟩
  | alternative passed fails inside ih =>
    rw [evaluate, then_error_iff]
    exact .inr ⟨_, _, passed, by simpa only [fails, Bool.false_eq_true, if_false] using ih failed⟩
  | round comes inside ih =>
    rw [evaluate, runLoop, then_error_iff, overAll_error_iff]
    exact .inl (.inr ⟨_, _, comes, ih failed⟩)

theorem StopsAt.fails {node : Node} {within : Bool} {path : String} {place : Option Position}
    (stops : node.StopsAt environment session within path place after) :
    evaluate environment node session = .error (.notIterable path place) after := by
  obtain ⟨environment', binding, body, reaches, bad⟩ := stops
  apply evaluate_error_of_reaches reaches
  rw [evaluate, runLoop, then_error_iff, overAll_error_iff]
  exact .inl (.inl ⟨bad, rfl, rfl⟩)

def Halts (environment : Environment) (node : Node) (session : Session) (failure : RenderFailure) (after : Session) : Prop :=
  ∃ within path place, failure = .notIterable path place ∧ node.StopsAt environment session within path place after

private theorem halts_block {children : List Node} (each : ∀ child ∈ children, ∀ session after failure,
      evaluate environment child session = .error failure after → Halts environment child session failure after)
    (failed : evaluate environment (.block children) session = .error failure after) :
    Halts environment (.block children) session failure after := by
  obtain ⟨before, child, behind, text, middle, rfl, passed, stopped⟩ :=
    evaluateEach_error_iff.mp (evaluate_block_error_iff.mp failed)
  obtain ⟨within, path, place, rfl, environment', binding, body, reaches, bad⟩ := each child (by simp) middle after _ stopped
  exact ⟨_, path, place, rfl, environment', binding, body, .child passed reaches, bad⟩

mutual
/-- A tree in shape fails only at a loop over something without items. -/
theorem halts_of_error : (node : Node) → node.Formed → ∀ environment session after failure,
    evaluate environment node session = .error failure after → Halts environment node session failure after
  | .block children, formed, environment, _, _, _, failed =>
    halts_block (fun child member => halts_of_error_each children formed child member environment) failed
  | .constant origin value, _, environment, session, after, failure, failed => by
    rw [evaluate] at failed
    cases failed
  | .variable path, _, environment, session, after, failure, failed => by
    rw [evaluate] at failed
    cases failed
  | .loop iterable binding (.block children) position, formed, environment, session, after, failure, failed => by
    rw [evaluate, runLoop_error_iff, overAll_error_iff] at failed
    · rcases failed with ⟨bad, rfl, rfl⟩ | ⟨item, middle, comes, stopped⟩
      · exact ⟨false, iterable, position, rfl, environment, binding, _, .here .., bad⟩
      · obtain ⟨within, path, place, rfl, environment', name, body, reaches, bad⟩ := halts_block
          (fun child member => halts_of_error_each children formed child member (environment.bind binding item)) stopped
        exact ⟨within, path, place, rfl, environment', name, body, .round comes reaches, bad⟩
    · intro item before part behind gave
      obtain ⟨text, rfl, _⟩ := evaluate_block_ok_iff.mp gave
      exact ⟨text, rfl⟩
  | .choice condition (.block first) (.block second), formed, environment, session, after, failure, failed => by
    obtain ⟨decides, one, two⟩ := formed
    obtain ⟨decided, same⟩ := evaluate_decides environment condition decides
    have passed : evaluate environment condition session = .ok decided session := by rw [same]; rfl
    rw [evaluate, same, pure_bind] at failed
    cases holds : decided.truthy with
    | true =>
      simp only [holds, if_true] at failed
      obtain ⟨within, path, place, rfl, environment', name, body, reaches, bad⟩ := halts_block
        (fun child member => halts_of_error_each first one child member environment) failed
      exact ⟨within, path, place, rfl, environment', name, body, .consequence passed holds reaches, bad⟩
    | false =>
      simp only [holds, Bool.false_eq_true, if_false] at failed
      obtain ⟨within, path, place, rfl, environment', name, body, reaches, bad⟩ := halts_block
        (fun child member => halts_of_error_each second two child member environment) failed
      exact ⟨within, path, place, rfl, environment', name, body, .alternative passed holds reaches, bad⟩

theorem halts_of_error_each : (children : List Node) → FormedEach children → ∀ child ∈ children,
    ∀ environment session after failure, evaluate environment child session = .error failure after →
      Halts environment child session failure after
  | [], _, _, member, _, _, _, _, _ => absurd member List.not_mem_nil
  | child :: children, formed, culprit, member, environment, session, after, failure, failed => by
    rcases List.mem_cons.mp member with same | later
    · rw [same] at failed ⊢
      exact halts_of_error child formed.1 environment session after failure failed
    · exact halts_of_error_each children formed.2 culprit later environment session after failure failed
end

end

end Node
end Stencil
