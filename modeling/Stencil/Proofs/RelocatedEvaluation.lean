import Stencil.Proofs.EvaluationReach
import Stencil.Proofs.TreeRelocation

/-! Evaluation of trees that lie elsewhere. It gives the same values and stops at the same loops; only where these stand in
their source differs, unless they belong to a partial. -/

namespace Stencil

namespace Evaluating
variable {round round' : Value → Evaluating Value}

def Follows (round round' : Value → Evaluating Value) : Prop :=
  ∀ item session part after, round item session = .ok part after → round' item session = .ok part after

theorem Follows.overItems (follows : Follows round round') {items parts : List Value} {session after : Session}
    (done : overItems round items session = .ok parts after) :
    Evaluating.overItems round' items session = .ok parts after := by
  induction items generalizing session parts after with
  | nil => exact done
  | cons item items ih =>
    obtain ⟨part, middle, passed, done⟩ := then_ok_iff.mp done
    obtain ⟨others, between, rest, done⟩ := then_ok_iff.mp done
    exact then_ok_iff.mpr ⟨part, middle, follows _ _ _ _ passed, then_ok_iff.mpr ⟨others, between, ih rest, done⟩⟩

theorem Follows.overStream (follows : Follows round round') {id rounds : Nat} {parts : List Value} {session after : Session}
    (done : overStream round id rounds session = .ok parts after) :
    Evaluating.overStream round' id rounds session = .ok parts after := by
  induction rounds generalizing session parts after with
  | zero => exact done
  | succ rounds ih =>
    obtain ⟨found, middle, drawn, done⟩ := then_ok_iff.mp done
    apply then_ok_iff.mpr
    refine ⟨found, middle, drawn, ?_⟩
    cases found with
    | none => exact done
    | some item =>
      obtain ⟨part, between, passed, done⟩ := then_ok_iff.mp done
      obtain ⟨others, last, rest, done⟩ := then_ok_iff.mp done
      exact then_ok_iff.mpr ⟨part, between, follows _ _ _ _ passed, then_ok_iff.mpr ⟨others, last, ih rest, done⟩⟩

theorem Follows.runLoop (follows : Follows round round') {path : String} {position position' : Option Position}
    {source value : Value} {session after : Session} (done : runLoop path position round source session = .ok value after) :
    Evaluating.runLoop path position' round' source session = .ok value after := by
  obtain ⟨parts, middle, collected, done⟩ := then_ok_iff.mp done
  apply then_ok_iff.mpr
  refine ⟨parts, middle, ?_, done⟩
  cases source with
  | list items => exact follows.overItems collected
  | tuple items => exact follows.overItems collected
  | stream id =>
    have drawn : Evaluating.overStream round id (session.remaining id).length session = .ok parts middle := collected
    exact follows.overStream drawn
  | _ => cases collected

theorem Follows.comes (follows : Follows round round') {source item : Value} {session after : Session}
    (comes : Comes round source session item after) : Comes round' source session item after := by
  have items {items : List Value} {session after : Session} {item : Value} (comes : InItems round items session item after) :
      InItems round' items session item after := by
    induction comes with
    | now item items session => exact .now item items session
    | later passed comes ih => exact .later (follows _ _ _ _ passed) ih
  have stream {id rounds : Nat} {session after : Session} {item : Value}
      (comes : InStream round id rounds session item after) : InStream round' id rounds session item after := by
    induction comes with
    | now drawn => exact .now drawn
    | later drawn passed comes ih => exact .later drawn (follows _ _ _ _ passed) ih
  cases comes with
  | list comes => exact .list (items comes)
  | tuple comes => exact .tuple (items comes)
  | stream comes => exact .stream (stream comes)

end Evaluating

namespace Node
open Evaluating
variable (move : Position → Position)

mutual
/-- Where a source stands makes no difference to what its tree comes to. -/
theorem evaluate_relocate : (node : Node) → ∀ environment session value after,
    evaluate environment node session = .ok value after →
    evaluate environment (node.relocate move) session = .ok value after
  | .block children, environment, session, value, after, done => by
    obtain ⟨text, rfl, each⟩ := evaluate_block_ok_iff.mp done
    rw [relocate]
    exact evaluate_block_ok_iff.mpr ⟨text, rfl, evaluateEach_relocate children environment session text after each⟩
  | .loop iterable binding body position, environment, session, value, after, done => by
    rw [evaluate] at done
    rw [relocate, evaluate]
    have follows : Follows (fun item => evaluate (environment.bind binding item) body)
        (fun item => evaluate (environment.bind binding item) (body.relocate move)) :=
      fun item => evaluate_relocate body (environment.bind binding item)
    exact follows.runLoop done
  | .choice condition consequence alternative, environment, session, value, after, done => by
    rw [evaluate] at done
    rw [relocate, evaluate]
    obtain ⟨decided, middle, passed, done⟩ := then_ok_iff.mp done
    apply then_ok_iff.mpr
    refine ⟨decided, middle, passed, ?_⟩
    cases holds : decided.truthy with
    | true =>
      simp only [holds, if_true] at done ⊢
      exact evaluate_relocate consequence environment middle value after done
    | false =>
      simp only [holds, Bool.false_eq_true, if_false] at done ⊢
      exact evaluate_relocate alternative environment middle value after done
  | .constant _ _, _, _, _, _, done => done
  | .variable _, _, _, _, _, done => done
  | .binary _ _ _, _, _, _, _, done => done
  | .stray _, _, _, _, _, done => done

theorem evaluateEach_relocate : (children : List Node) → ∀ environment session text after,
    evaluateEach environment children session = .ok text after →
    evaluateEach environment (relocateEach move children) session = .ok text after
  | [], _, _, _, _, done => done
  | child :: children, environment, session, text, after, done => by
    rw [evaluateEach] at done
    rw [relocateEach_cons, evaluateEach]
    obtain ⟨value, middle, passed, done⟩ := then_ok_iff.mp done
    obtain ⟨others, between, rest, done⟩ := then_ok_iff.mp done
    refine then_ok_iff.mpr ⟨value, middle, ?_, then_ok_iff.mpr ⟨others, between, ?_, done⟩⟩
    · split
      · exact passed
      · exact evaluate_relocate child environment session value middle passed
    · exact evaluateEach_relocate children environment middle others between rest
end

theorem isBlock_relocate (node : Node) : (node.relocate move).isBlock = node.isBlock := by
  cases node <;> rfl

theorem Reaches.relocate {environment environment' : Environment} {node inner : Node} {session after : Session}
    {within : Bool} (reaches : Reaches environment node session within environment' inner after) :
    Reaches environment (node.relocate move) session within environment'
      (if within then inner else inner.relocate move) after := by
  induction reaches with
  | here environment node session => exact .here environment _ session
  | @child _ _ before behind child inner _ _ _ _ within passed inside ih =>
    have passed' := evaluateEach_relocate move _ _ _ _ _ passed
    rw [Node.relocate, relocateEach_append, relocateEach_cons]
    by_cases block : child.isBlock = true
    · have stays : (if (within || child.isBlock) = true then inner else inner.relocate move) = inner := by simp [block]
      rw [stays, if_pos block]
      exact .child passed' inside
    · have goes : (if (within || child.isBlock) = true then inner else inner.relocate move) =
          if within = true then inner else inner.relocate move := by simp [block]
      rw [goes, if_neg block, ← isBlock_relocate move]
      exact .child passed' ih
  | consequence passed holds inside ih => exact .consequence passed holds ih
  | alternative passed fails inside ih => exact .alternative passed fails ih
  | round comes inside ih => exact .round (Follows.comes (fun item => evaluate_relocate move _ _) comes) ih

/-- An evaluation stops at the same loop, which knows another place unless a partial holds it. -/
theorem StopsAt.relocate {environment : Environment} {node : Node} {session after : Session} {within : Bool} {path : String}
    {place : Option Position} (stops : node.StopsAt environment session within path place after) :
    (node.relocate move).StopsAt environment session within path (if within then place else place.map move) after := by
  obtain ⟨environment', binding, body, reaches, bad⟩ := stops
  have reaches' := reaches.relocate move
  cases within with
  | true => exact ⟨environment', binding, body, reaches', bad⟩
  | false => exact ⟨environment', binding, body.relocate move, reaches', bad⟩

end Node
end Stencil
