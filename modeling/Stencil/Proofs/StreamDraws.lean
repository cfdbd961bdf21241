import Mathlib
import Stencil.Proofs.SessionProgress
import Stencil.Proofs.SourceExtent
import Stencil.Proofs.SourceTokens

/-! What loops bind of the streams that they go over. Whichever loops do, in whichever render, they share what a stream holds:
all that they bind of it, in the order of time, is what stood at its head. -/

namespace Stencil

namespace Evaluating
variable (round : Value → Evaluating Value)

/-- The rounds over items that come about, each with its item and the session in which it begins. -/
def roundsOverItems : List Value → Session → List (Value × Session)
  | [], _ => []
  | item :: items, session =>
    (item, session) ::
      match round item session with
      | .ok _ rest => roundsOverItems items rest
      | .error _ _ => []

def roundsOverStream (id : Nat) : Nat → Session → List (Value × Session)
  | 0, _ => []
  | count + 1, session =>
    match draw id session with
    | .ok (some item) begun =>
      (item, begun) ::
        match round item begun with
        | .ok _ rest => roundsOverStream id count rest
        | .error _ _ => []
    | _ => []

def roundsOverAll (source : Value) (session : Session) : List (Value × Session) :=
  match source with
  | .list items => roundsOverItems round items session
  | .tuple items => roundsOverItems round items session
  | .stream id => roundsOverStream round id (session.remaining id).length session
  | _ => []

end Evaluating

/-- An item that a loop over a stream binds, with the number of the stream. Other items are no concern of any stream. -/
def Value.streamed : Value → Value → List (Nat × Value)
  | .stream id, item => [(id, item)]
  | _, _ => []

namespace Node
open Evaluating

mutual
/-- What the loops in a tree bind of streams when it is evaluated, in the order of time. -/
def bound (environment : Environment) : Node → Session → List (Nat × Value)
  | .block children, session => boundEach environment children session
  | .loop iterable binding body _, session =>
    (roundsOverAll (fun item => body.evaluate (environment.bind binding item)) (environment.resolve iterable) session).flatMap
      fun (item, begun) => (environment.resolve iterable).streamed item ++ bound (environment.bind binding item) body begun
  | .choice condition consequence alternative, session =>
    match condition.evaluate environment session with
    | .ok decided rest => if decided.truthy then bound environment consequence rest else bound environment alternative rest
    | .error _ _ => []
  | .constant _ _, _ | .variable _, _ | .binary _ _ _, _ | .stray _, _ => []

def boundEach (environment : Environment) : List Node → Session → List (Nat × Value)
  | [], _ => []
  | child :: children, session =>
    bound environment child session ++
      match child.evaluate environment session with
      | .ok _ rest => boundEach environment children rest
      | .error _ _ => []
end

end Node

namespace Evaluating
variable {α β : Type}

/-- What the step draws, in the session that it finds. -/
def Draws (step : Evaluating α) (recent : Session → List (Nat × Value)) : Prop :=
  ∀ session, (after step session).draws = session.draws ++ recent session

theorem draws_pure (value : α) : Draws (pure value) fun _ => [] := fun session => (List.append_nil session.draws).symm

theorem draws_throw (failure : RenderFailure) : Draws (throw failure : Evaluating α) fun _ => [] :=
  fun session => (List.append_nil session.draws).symm

theorem Draws.congr {step : Evaluating α} {recent recent' : Session → List (Nat × Value)} (draws : Draws step recent)
    (same : ∀ session, recent session = recent' session) : Draws step recent' :=
  fun session => same session ▸ draws session

theorem Draws.bind {step : Evaluating α} {next : α → Evaluating β} {recent : Session → List (Nat × Value)}
    {later : α → Session → List (Nat × Value)} (first : Draws step recent)
    (rest : ∀ value, Draws (next value) (later value)) : Draws (step >>= next) fun session => recent session ++
      match step session with
      | .ok value middle => later value middle
      | .error _ _ => [] := by
  intro session
  have start := first session
  rw [after_then]
  cases taken : step session with
  | error failure middle =>
    rw [after_error taken] at start
    simpa only [taken, List.append_nil] using start
  | ok value middle =>
    rw [after_ok taken] at start
    simp only [taken, rest value middle, start, List.append_assoc]

theorem Draws.map {step : Evaluating α} {recent : Session → List (Nat × Value)} (draws : Draws step recent) (f : α → β) :
    Draws (do return f (← step)) recent := by
  apply (draws.bind fun value => draws_pure (f value)).congr
  intro session
  cases step session <;> simp

section
variable {round : Value → Evaluating Value} {inner : Value → Session → List (Nat × Value)}
  (each : ∀ item, Draws (round item) (inner item))
include each

theorem draws_overItems (items : List Value) : Draws (overItems round items) fun session =>
    (roundsOverItems round items session).flatMap fun (item, begun) => inner item begun := by
  induction items with
  | nil => exact draws_pure []
  | cons item items ih =>
    apply ((each item).bind fun part => ih.map (part :: ·)).congr
    intro session
    rw [roundsOverItems, List.flatMap_cons]
    cases round item session <;> rfl

theorem draws_overStream (id count : Nat) : Draws (overStream round id count) fun session =>
    (roundsOverStream round id count session).flatMap fun (item, begun) => (id, item) :: inner item begun := by
  induction count with
  | zero => exact draws_pure []
  | succ count ih =>
    intro session
    simp only [overStream, after_then, roundsOverStream]
    cases held : session.remaining id with
    | nil =>
      rw [draw_nothing held]
      exact draws_pure [] session
    | cons item rest =>
      rw [draw_first held]
      have drawn := ((each item).bind fun part => ih.map (part :: ·)) (session.drawing id item rest)
      simp only [Session.draws_drawing, List.append_assoc, List.singleton_append] at drawn
      simp only [drawn, List.flatMap_cons, List.cons_append]
      cases round item (session.drawing id item rest) <;> rfl

theorem draws_overAll (path : String) (position : Option Position) (source : Value) :
    Draws (overAll path position round source) fun session =>
      (roundsOverAll round source session).flatMap fun (item, begun) => source.streamed item ++ inner item begun := by
  cases source with
  | list items => exact draws_overItems each items
  | tuple items => exact draws_overItems each items
  | stream id => exact fun session => draws_overStream each id (session.remaining id).length session
  | _ => exact draws_throw _

theorem draws_runLoop (path : String) (position : Option Position) (source : Value) :
    Draws (runLoop path position round source) fun session =>
      (roundsOverAll round source session).flatMap fun (item, begun) => source.streamed item ++ inner item begun := by
  intro session
  have drawn := draws_overAll each path position source session
  rw [← drawn, after_runLoop]
  cases collected : overAll path position round source session with
  | error failure middle => rw [after_error collected]
  | ok parts middle =>
    rw [after_ok collected, Session.draws_record]
    exact List.append_nil _

end

end Evaluating

namespace Node
open Evaluating

mutual
/-- An evaluation draws what its loops bind. -/
theorem draws_evaluate : (node : Node) → node.Formed → ∀ environment,
    Draws (node.evaluate environment) (bound environment node)
  | .block children, formed, environment => by
    rw [evaluate]
    exact (draws_evaluateEach children formed environment).map Value.text
  | .constant _ value, _, _ => by
    rw [evaluate]
    exact draws_pure value
  | .variable path, _, environment => by
    rw [evaluate]
    exact draws_pure (environment.resolve path)
  | .loop iterable binding body position, formed, environment => by
    rw [evaluate]
    have each (item : Value) := draws_evaluate body formed.of_loop (environment.bind binding item)
    exact draws_runLoop each iterable position (environment.resolve iterable)
  | .choice condition consequence alternative, formed, environment => by
    obtain ⟨decides, one, two⟩ := formed.of_choice
    obtain ⟨decided, same⟩ := evaluate_decides environment condition decides
    intro session
    have first := draws_evaluate consequence one environment session
    have second := draws_evaluate alternative two environment session
    rw [evaluate, bound, same, pure_bind]
    change _ = _ ++ if decided.truthy then bound environment consequence session else bound environment alternative session
    split
    · exact first
    · exact second

theorem draws_evaluateEach : (children : List Node) → FormedEach children → ∀ environment,
    Draws (evaluateEach environment children) (boundEach environment children)
  | [], _, _ => draws_pure ""
  | child :: children, formed, environment => by
    have first := draws_evaluate child formed.1 environment
    have rest := draws_evaluateEach children formed.2 environment
    apply (first.bind fun value => rest.map (value.plain ++ ·)).congr
    intro session
    rw [boundEach]
    cases child.evaluate environment session <;> rfl
end

end Node

namespace Template
open Evaluating
open Environment (forRender)

/-- The session that renders leave, one after the other, whatever comes of each. -/
def afterRenders : List (Template × Value) → Session → Session
  | [], session => session
  | (template, data) :: renders, session => afterRenders renders (after (template.render data) session)

/-- What the loops of all renders bind of streams, in the order of time. -/
def boundInRenders : List (Template × Value) → Session → List (Nat × Value)
  | [], _ => []
  | (template, data) :: renders, session =>
    template.root.bound (forRender data template.globals) session ++
      boundInRenders renders (after (template.render data) session)

/-- One of the renders comes to a node, in an environment and a session. -/
def Visits (renders : List (Template × Value)) (start : Session) (environment : Environment) (node : Node)
    (moment : Session) : Prop :=
  ∃ earlier template data later within, renders = earlier ++ (template, data) :: later ∧
    template.root.Reaches (forRender data template.globals) (afterRenders earlier start) within environment node moment

/-- The template was made from a source. -/
def Compiled (template : Template) : Prop :=
  ∃ content partials globals, (compile content partials globals).result = .ok template

theorem Compiled.formed {template : Template} (compiled : template.Compiled) : template.root.Formed := by
  obtain ⟨content, partials, globals, compiled⟩ := compiled
  obtain ⟨children, parsed, rfl⟩ := compile_ok_iff.mp compiled
  exact formed_parse parsed

theorem leads_afterRenders (renders : List (Template × Value)) (start : Session) :
    start.Leads (afterRenders renders start) := by
  induction renders generalizing start with
  | nil => exact .refl start
  | cons entry renders ih =>
    obtain ⟨template, data⟩ := entry
    exact (Node.advances_evaluate template.root _ start).trans (ih _)

theorem draws_afterRenders {renders : List (Template × Value)} (compiled : ∀ entry ∈ renders, entry.1.Compiled)
    (start : Session) : (afterRenders renders start).draws = start.draws ++ boundInRenders renders start := by
  induction renders generalizing start with
  | nil => exact (List.append_nil _).symm
  | cons entry renders ih =>
    obtain ⟨template, data⟩ := entry
    obtain ⟨made, others⟩ := List.forall_mem_cons.mp compiled
    have drawn := Node.draws_evaluate template.root made.formed (forRender data template.globals) start
    rw [afterRenders, ih others, boundInRenders, ← List.append_assoc]
    exact congrArg (· ++ _) drawn

section
variable {renders : List (Template × Value)} {start moment : Session} {environment : Environment} {node : Node}

theorem Visits.leads (visits : Visits renders start environment node moment) : start.Leads moment := by
  obtain ⟨earlier, template, data, later, within, rfl, reaches⟩ := visits
  exact (leads_afterRenders earlier start).trans (Node.leads_of_reaches reaches)

theorem Visits.formed (visits : Visits renders start environment node moment)
    (compiled : ∀ entry ∈ renders, entry.1.Compiled) : node.Formed := by
  obtain ⟨earlier, template, data, later, within, rfl, reaches⟩ := visits
  exact Node.formed_of_reaches reaches (compiled (template, data) (by simp)).formed

end

/-- Renders share what the streams hold. All that their loops bind of a stream is what stood at its head, and it holds the
rest; what is shown and what decides draws nothing; and a loop over a stream that comes to its end leaves nothing for any
loop after it. A session is later than another if it notes all that the other does. -/
theorem renders_draw_in_order {renders : List (Template × Value)} (compiled : ∀ entry ∈ renders, entry.1.Compiled)
    (start : Session) :
    (∀ id, start.remaining id = drawnFrom id (boundInRenders renders start) ++ (afterRenders renders start).remaining id) ∧
    (∀ environment path moment, Visits renders start environment (.variable path) moment →
      (Node.variable path).evaluate environment moment = .ok (environment.resolve path) moment) ∧
    (∀ environment condition first second moment, Visits renders start environment (.choice condition first second) moment →
      ∃ decided, condition.evaluate environment moment = .ok decided moment) ∧
    ∀ environment path binding body place moment id output done,
      Visits renders start environment (.loop path binding body place) moment → environment.resolve path = .stream id →
      (Node.loop path binding body place).evaluate environment moment = .ok output done →
      done.remaining id = [] ∧
      ∀ environment' path' binding' body' place' later,
        Visits renders start environment' (.loop path' binding' body' place') later →
        environment'.resolve path' = .stream id → done.events <:+ later.events →
        (Node.loop path' binding' body' place').evaluate environment' later =
          .ok (.text "") (later.record (.finished path' 0)) := by
  refine ⟨?_, ?_, ?_, ?_⟩
  · exact (leads_afterRenders renders start).remaining (draws_afterRenders compiled start)
  · intro environment path moment _
    rfl
  · intro environment condition first second moment visits
    obtain ⟨decided, same⟩ := Node.evaluate_decides environment condition (visits.formed compiled).of_choice.1
    exact ⟨decided, by rw [same]; rfl⟩
  · intro environment path binding body place moment id output done visits resolved evaluated
    have onward := Node.advances_evaluate (.loop path binding body place) environment moment
    rw [after_ok evaluated] at onward
    rw [Node.evaluate, resolved] at evaluated
    have exhausted := exhausted_of_runLoop (fun item => Node.advances_evaluate body (environment.bind binding item)) evaluated
    refine ⟨exhausted, ?_⟩
    intro environment' path' binding' body' place' later visits' resolved' notes
    rw [Node.evaluate, resolved']
    exact runLoop_exhausted ((visits.leads.trans onward).stays_exhausted visits'.leads notes exhausted) path' place' _

/-- A loop over what another loop binds. -/
def cascade : String := "\x7b% for xs as x %\x7d\x7b% for x as y %\x7d\x7b\x7by\x7d\x7d\x7b% end %\x7d\x7b% end %\x7d"

private theorem cascade_read :
    Token.read? (.into rootName cascade 0) = .ok (some ⟨some ⟨1, 0⟩, .loop "xs" "x"⟩) (.into rootName cascade 17) ∧
      Token.read? (.into rootName cascade 17) = .ok (some ⟨some ⟨1, 17⟩, .loop "x" "y"⟩) (.into rootName cascade 33) ∧
      Token.read? (.into rootName cascade 33) = .ok (some ⟨some ⟨1, 33⟩, .variable "y"⟩) (.into rootName cascade 38) ∧
      Token.read? (.into rootName cascade 38) = .ok (some ⟨some ⟨1, 38⟩, .close⟩) (.into rootName cascade 47) ∧
      Token.read? (.into rootName cascade 47) = .ok (some ⟨some ⟨1, 47⟩, .close⟩) (.into rootName cascade 56) ∧
      Token.read? (.into rootName cascade 56) = .ok none (.into rootName cascade 56) := by
  refine ⟨?_, ?_, ?_, ?_, ?_, ?_⟩ <;> cbv

private theorem cascade_tokens : tokensFrom (.into rootName cascade 0) =
    ([⟨some ⟨1, 0⟩, .loop "xs" "x"⟩, ⟨some ⟨1, 17⟩, .loop "x" "y"⟩, ⟨some ⟨1, 33⟩, .variable "y"⟩,
      ⟨some ⟨1, 38⟩, .close⟩, ⟨some ⟨1, 47⟩, .close⟩], none, ⟨.into rootName cascade 56, none⟩) := by
  obtain ⟨outer, inner, item, close, close', ended⟩ := cascade_read
  rw [tokensFrom_token outer, tokensFrom_token inner, tokensFrom_token item, tokensFrom_token close,
    tokensFrom_token close', tokensFrom_done ended]

def cascadeLoop : Node :=
  .loop "xs" "x" (.block [.loop "x" "y" (.block [.variable "y"]) (some ⟨1, 17⟩)]) (some ⟨1, 0⟩)

def cascading : Template := ⟨.block [cascadeLoop], .empty, .dict []⟩

private theorem cascading_compiled : (compile cascade .empty (.dict [])).result = .ok cascading :=
  compile_ok_iff.mpr ⟨[cascadeLoop], parse_of_tokens cascade_tokens rfl, rfl⟩

/-- A stream whose values are something to go over, something that is not, the stream itself and two more. -/
def winding : Session := ⟨[[.list [.text "a"], .text "b", .stream 0, .text "c", .text "d"]], []⟩

def windingData : Value := .dict [(.text "xs", .stream 0)]

def thrice : List (Template × Value) := List.replicate 3 (cascading, windingData)

private theorem thrice_visits {earlier later : List (Template × Value)}
    (split : thrice = earlier ++ (cascading, windingData) :: later) :
    Visits thrice winding (forRender windingData (.dict [])) cascadeLoop (afterRenders earlier winding) := by
  refine ⟨earlier, cascading, windingData, later, false, split, ?_⟩
  have begins : Node.evaluateEach (forRender windingData (.dict [])) [] (afterRenders earlier winding) = .ok [] _ := rfl
  exact .child begins (.here _ _ _)

/-- Of three renders the first fails with the stream half drawn, the second goes over the rest of it in a loop inside its own
loop, and the third finds nothing left. -/
theorem renders_draw_in_order_thrice : (compile cascade .empty (.dict [])).result = .ok cascading ∧
    (∀ entry ∈ thrice, entry.1.Compiled) ∧
    (∃ failure rest, cascading.render windingData winding = .error failure rest) ∧
    drawnFrom 0 (boundInRenders thrice winding) = [.list [.text "a"], .text "b", .stream 0, .text "c", .text "d"] ∧
    winding.remaining 0 = drawnFrom 0 (boundInRenders thrice winding) ++ (afterRenders thrice winding).remaining 0 ∧
    ∃ environment moment done later, Visits thrice winding environment cascadeLoop moment ∧
      cascadeLoop.evaluate environment moment = .ok (.text "cd") done ∧ done.remaining 0 = [] ∧
      Visits thrice winding environment cascadeLoop later ∧ done.events <:+ later.events ∧
      cascadeLoop.evaluate environment later = .ok (.text "") (later.record (.finished "xs" 0)) := by
  have made : ∀ entry ∈ thrice, Compiled entry.1 := by
    intro entry member
    rw [List.eq_of_mem_replicate member]
    exact ⟨_, _, _, cascading_compiled⟩
  obtain ⟨shared, _, _, exhausts⟩ := renders_draw_in_order made winding
  have second := thrice_visits (show thrice = [(cascading, windingData)] ++ _ :: [_] from rfl)
  have third := thrice_visits (show thrice = List.replicate 2 (cascading, windingData) ++ _ :: [] from rfl)
  obtain ⟨done, evaluated⟩ : ∃ done, cascadeLoop.evaluate (forRender windingData (.dict []))
      (afterRenders [(cascading, windingData)] winding) = .ok (.text "cd") done := ⟨_, rfl⟩
  have left : done = afterRenders (List.replicate 2 (cascading, windingData)) winding := by
    cases evaluated
    rfl
  obtain ⟨exhausted, nothing⟩ := exhausts _ _ _ _ _ _ 0 _ _ second rfl evaluated
  have notes : done.events <:+ (afterRenders (List.replicate 2 (cascading, windingData)) winding).events :=
    left ▸ List.suffix_rfl
  exact ⟨cascading_compiled, made, ⟨_, _, rfl⟩, rfl, shared 0, _, _, done, _, second, evaluated, exhausted, third, notes,
    nothing _ _ _ _ _ _ third rfl notes⟩

end Template
end Stencil
