import Stencil.Proofs.EvaluationReach

/-! How evaluations change a session. They note what happens, and what a stream no longer holds was drawn from its head and
noted, whether they succeed or fail. A loop over a stream that comes to its end leaves nothing in it. -/

namespace Stencil

def drawnFrom (id : Nat) (draws : List (Nat × Value)) : List Value := (draws.filter fun draw => draw.1 = id).map Prod.snd

theorem drawnFrom_append (id : Nat) (first more : List (Nat × Value)) :
    drawnFrom id (first ++ more) = drawnFrom id first ++ drawnFrom id more := by
  simp [drawnFrom]

namespace Event

def drawn? : Event → Option (Nat × Value)
  | .drawn id value => some (id, value)
  | .finished _ _ => none

end Event

namespace Session

/-- What was drawn so far, the earliest first. -/
def draws (session : Session) : List (Nat × Value) := session.events.reverse.filterMap Event.drawn?

/-- What a stream has given so far and what it still holds. -/
def elements (session : Session) (id : Nat) : List Value := drawnFrom id session.draws ++ session.remaining id

/-- One session goes on to the other. -/
structure Leads (session after : Session) : Prop where
  notes : session.events <:+ after.events
  keeps : ∀ id, after.elements id = session.elements id

variable {session middle after : Session}

theorem Leads.refl (session : Session) : session.Leads session := ⟨List.suffix_rfl, fun _ => rfl⟩

theorem Leads.trans (first : session.Leads middle) (rest : middle.Leads after) : session.Leads after :=
  ⟨first.notes.trans rest.notes, fun id => (rest.keeps id).trans (first.keeps id)⟩

theorem draws_record (session : Session) (event : Event) :
    (session.record event).draws = session.draws ++ event.drawn?.toList := by
  simp only [draws, record, List.reverse_cons, List.filterMap_append, List.filterMap_cons, List.filterMap_nil]
  cases event.drawn? <;> rfl

theorem draws_prefix (notes : session.events <:+ after.events) : session.draws <+: after.draws := by
  obtain ⟨recent, same⟩ := notes
  exact ⟨recent.reverse.filterMap Event.drawn?, by simp [draws, ← same]⟩

/-- What was drawn on the way is what a stream no longer holds. -/
theorem Leads.remaining (leads : session.Leads after) {recent : List (Nat × Value)}
    (drawn : after.draws = session.draws ++ recent) (id : Nat) :
    session.remaining id = drawnFrom id recent ++ after.remaining id := by
  have kept := leads.keeps id
  rw [elements, elements, drawn, drawnFrom_append, List.append_assoc] at kept
  exact (List.append_cancel_left kept).symm

theorem Leads.remaining_suffix (leads : session.Leads after) (id : Nat) :
    after.remaining id <:+ session.remaining id := by
  obtain ⟨recent, drawn⟩ := draws_prefix leads.notes
  exact ⟨drawnFrom id recent, (leads.remaining drawn.symm id).symm⟩

/-- Of two sessions that come from one, the later holds nothing where the earlier does not. -/
theorem Leads.stays_exhausted {later : Session} (one : session.Leads after) (two : session.Leads later)
    (notes : after.events <:+ later.events) {id : Nat} (exhausted : after.remaining id = []) : later.remaining id = [] := by
  have leads : after.Leads later := ⟨notes, fun id => (two.keeps id).trans (one.keeps id).symm⟩
  exact List.suffix_nil.mp (exhausted ▸ leads.remaining_suffix id)

theorem leads_finished (session : Session) (path : String) (rounds : Nat) :
    session.Leads (session.record (.finished path rounds)) := by
  refine ⟨List.suffix_cons .., fun id => ?_⟩
  rw [elements, draws_record, Event.drawn?, Option.toList_none, List.append_nil]
  rfl

def drawing (session : Session) (id : Nat) (value : Value) (rest : List Value) : Session :=
  { session with streams := session.streams.set id rest }.record (.drawn id value)

theorem remaining_drawing {id : Nat} {value : Value} {rest : List Value} (held : session.remaining id = value :: rest)
    (other : Nat) :
    (session.drawing id value rest).remaining other = if other = id then rest else session.remaining other := by
  have inside : id < session.streams.length := by
    apply Nat.lt_of_not_le
    intro outside
    simp [remaining, List.getElem?_eq_none outside] at held
  split
  next same =>
    subst same
    simp [remaining, drawing, record, List.getElem?_set_self inside]
  next different => simp [remaining, drawing, record, List.getElem?_set_ne (Ne.symm different)]

theorem draws_drawing (id : Nat) (value : Value) (rest : List Value) :
    (session.drawing id value rest).draws = session.draws ++ [(id, value)] := draws_record _ _

theorem leads_drawing {id : Nat} {value : Value} {rest : List Value} (held : session.remaining id = value :: rest) :
    session.Leads (session.drawing id value rest) := by
  refine ⟨List.suffix_cons .., fun other => ?_⟩
  rw [elements, elements, draws_drawing, drawnFrom_append, List.append_assoc, remaining_drawing held]
  split
  next same => simp [drawnFrom, same, held]
  next different => simp [drawnFrom, Ne.symm different]

end Session

namespace Evaluating
variable {α β : Type}

def after (step : Evaluating α) (session : Session) : Session :=
  match step session with
  | .ok _ rest => rest
  | .error _ rest => rest

theorem after_ok {step : Evaluating α} {session rest : Session} {value : α} (done : step session = .ok value rest) :
    after step session = rest := by
  simp only [after, done]

theorem after_error {step : Evaluating α} {session rest : Session} {failure : RenderFailure}
    (failed : step session = .error failure rest) : after step session = rest := by
  simp only [after, failed]

/-- What follows a step happens in the session that it leaves, if it succeeds. -/
theorem after_then (step : Evaluating α) (next : α → Evaluating β) (session : Session) :
    after (step >>= next) session =
      match step session with
      | .ok value middle => after (next value) middle
      | .error _ rest => rest := by
  change after (EStateM.bind step next) session = _
  simp only [after, EStateM.bind]
  cases step session <;> rfl

/-- Whatever session the step finds goes on to the one that it leaves. -/
def Advances (step : Evaluating α) : Prop := ∀ session : Session, session.Leads (after step session)

theorem advances_pure (value : α) : Advances (pure value) := Session.Leads.refl

theorem advances_throw (failure : RenderFailure) : Advances (throw failure : Evaluating α) := Session.Leads.refl

theorem Advances.bind {step : Evaluating α} {next : α → Evaluating β} (first : Advances step)
    (rest : ∀ value, Advances (next value)) : Advances (step >>= next) := by
  intro session
  have start := first session
  rw [after_then]
  cases taken : step session with
  | ok value middle => exact (after_ok taken ▸ start).trans (rest value middle)
  | error failure middle => exact after_error taken ▸ start

theorem draw_nothing {id : Nat} {session : Session} (exhausted : session.remaining id = []) :
    draw id session = .ok none session :=
  then_ok_iff.mpr ⟨session, session, rfl, by simp only [exhausted]; rfl⟩

theorem draw_first {id : Nat} {session : Session} {value : Value} {rest : List Value}
    (held : session.remaining id = value :: rest) : draw id session = .ok (some value) (session.drawing id value rest) :=
  then_ok_iff.mpr ⟨session, session, rfl, by simp only [held]; rfl⟩

theorem advances_draw (id : Nat) : Advances (draw id) := by
  intro session
  cases held : session.remaining id with
  | nil =>
    rw [after_ok (draw_nothing held)]
    exact .refl session
  | cons value rest =>
    rw [after_ok (draw_first held)]
    exact Session.leads_drawing held

theorem after_joinRounds (index : Nat) (parts : List Value) (session : Session) :
    after (joinRounds index parts) session = session := by
  induction parts generalizing index with
  | nil => rfl
  | cons part parts ih =>
    cases part with
    | text content =>
      have joined := ih (index + 1)
      rw [joinRounds, after_then]
      cases taken : joinRounds (index + 1) parts session with
      | ok rest middle => exact after_ok taken ▸ joined
      | error failure middle => exact after_error taken ▸ joined
    | _ => rfl

/-- Whether the rounds of a loop can be joined makes no difference to the session. -/
theorem after_runLoop (path : String) (position : Option Position) (round : Value → Evaluating Value) (source : Value)
    (session : Session) : after (runLoop path position round source) session =
      match overAll path position round source session with
      | .ok parts middle => middle.record (.finished path parts.length)
      | .error _ middle => middle := by
  rw [runLoop, after_then]
  cases overAll path position round source session with
  | error failure middle => rfl
  | ok parts middle =>
    have joined := after_joinRounds 0 parts (middle.record (.finished path parts.length))
    change after (joinRounds 0 parts >>= fun content => pure (Value.text content))
      (middle.record (.finished path parts.length)) = _
    rw [after_then]
    cases taken : joinRounds 0 parts (middle.record (.finished path parts.length)) with
    | ok rest noted => exact after_ok taken ▸ joined
    | error failure noted => exact after_error taken ▸ joined

section
variable {round : Value → Evaluating Value} (rounds : ∀ item, Advances (round item))
include rounds

theorem advances_overItems (items : List Value) : Advances (overItems round items) := by
  induction items with
  | nil => exact advances_pure []
  | cons item items ih => exact (rounds item).bind fun _ => ih.bind fun _ => advances_pure _

theorem advances_overStream (id count : Nat) : Advances (overStream round id count) := by
  induction count with
  | zero => exact advances_pure []
  | succ count ih =>
    apply (advances_draw id).bind
    intro found
    cases found with
    | none => exact advances_pure []
    | some item => exact (rounds item).bind fun _ => ih.bind fun _ => advances_pure _

theorem advances_overAll (path : String) (position : Option Position) (source : Value) :
    Advances (overAll path position round source) := by
  cases source with
  | list items => exact advances_overItems rounds items
  | tuple items => exact advances_overItems rounds items
  | stream id => exact fun session => advances_overStream rounds id (session.remaining id).length session
  | _ => exact advances_throw _

theorem advances_runLoop (path : String) (position : Option Position) (source : Value) :
    Advances (runLoop path position round source) := by
  intro session
  have start := advances_overAll rounds path position source session
  rw [after_runLoop]
  cases collected : overAll path position round source session with
  | ok parts middle => exact (after_ok collected ▸ start).trans (Session.leads_finished middle path parts.length)
  | error failure middle => exact after_error collected ▸ start

/-- As many rounds as a stream holds values are enough to take them all, for no round puts any back. -/
theorem exhausted_of_overStream {id count : Nat} {parts : List Value} {session behind : Session}
    (enough : (session.remaining id).length ≤ count) (done : overStream round id count session = .ok parts behind) :
    behind.remaining id = [] := by
  induction count generalizing session parts with
  | zero =>
    cases done
    exact List.eq_nil_of_length_eq_zero (Nat.le_zero.mp enough)
  | succ count ih =>
    obtain ⟨found, middle, drawn, done⟩ := then_ok_iff.mp done
    cases held : session.remaining id with
    | nil =>
      rw [draw_nothing held] at drawn
      cases drawn
      cases done
      exact held
    | cons value rest =>
      rw [draw_first held] at drawn
      cases drawn
      obtain ⟨part, between, passed, done⟩ := then_ok_iff.mp done
      obtain ⟨others, last, done, same⟩ := then_ok_iff.mp done
      cases same
      apply ih _ done
      have shorter := ((after_ok passed ▸ rounds value _).remaining_suffix id).length_le
      rw [Session.remaining_drawing held, if_pos rfl] at shorter
      rw [held, List.length_cons] at enough
      omega

theorem exhausted_of_runLoop {path : String} {position : Option Position} {id : Nat} {value : Value}
    {session behind : Session} (done : runLoop path position round (.stream id) session = .ok value behind) :
    behind.remaining id = [] := by
  have left := after_runLoop path position round (.stream id) session
  rw [after_ok done] at left
  obtain ⟨parts, middle, collected, _⟩ := then_ok_iff.mp done
  simp only [collected] at left
  have taken : overStream round id (session.remaining id).length session = .ok parts middle := collected
  have exhausted : middle.remaining id = [] := exhausted_of_overStream rounds (Nat.le_refl _) taken
  rw [left]
  exact exhausted

theorem leads_of_comes {source item : Value} {session begun : Session} (comes : Comes round source session item begun) :
    session.Leads begun := by
  have items {items : List Value} {session begun : Session} {item : Value}
      (comes : InItems round items session item begun) : session.Leads begun := by
    induction comes with
    | now item items session => exact .refl session
    | later passed comes ih => exact (after_ok passed ▸ rounds _ _).trans ih
  have stream {id count : Nat} {session begun : Session} {item : Value}
      (comes : InStream round id count session item begun) : session.Leads begun := by
    induction comes with
    | now drawn => exact after_ok drawn ▸ advances_draw _ _
    | later drawn passed comes ih =>
      exact (after_ok drawn ▸ advances_draw _ _).trans ((after_ok passed ▸ rounds _ _).trans ih)
  cases comes with
  | list comes => exact items comes
  | tuple comes => exact items comes
  | stream comes => exact stream comes

end

/-- A loop over a stream with nothing left goes no round. -/
theorem runLoop_exhausted {id : Nat} {session : Session} (exhausted : session.remaining id = []) (path : String)
    (position : Option Position) (round : Value → Evaluating Value) :
    runLoop path position round (.stream id) session = .ok (.text "") (session.record (.finished path 0)) := by
  have none : overAll path position round (.stream id) session = .ok [] session := by
    change overStream round id (session.remaining id).length session = _
    rw [exhausted]
    rfl
  exact then_ok_iff.mpr ⟨[], session, none, rfl⟩

end Evaluating

namespace Node
open Evaluating

mutual
/-- Evaluations bring sessions on, of any tree and in any environment. -/
theorem advances_evaluate : (node : Node) → ∀ environment, Advances (node.evaluate environment)
  | .block children, environment => by
    rw [evaluate]
    exact (advances_evaluateEach children environment).bind fun _ => advances_pure _
  | .constant _ value, _ => by
    rw [evaluate]
    exact advances_pure value
  | .variable path, environment => by
    rw [evaluate]
    exact advances_pure _
  | .stray value, _ => by
    rw [evaluate]
    exact advances_throw _
  | .binary operator left right, environment => by
    have first := advances_evaluate left environment
    have second := advances_evaluate right environment
    cases operator with
    | equals => exact first.bind fun _ => second.bind fun _ => advances_pure _
    | differs => exact first.bind fun _ => second.bind fun _ => advances_pure _
    | and =>
      apply first.bind
      intro value
      split
      · exact second.bind fun _ => advances_pure _
      · exact advances_pure _
    | or =>
      apply first.bind
      intro value
      split
      · exact advances_pure _
      · exact second.bind fun _ => advances_pure _
  | .loop iterable binding body position, environment => by
    rw [evaluate]
    exact advances_runLoop (fun item => advances_evaluate body (environment.bind binding item)) iterable position _
  | .choice condition consequence alternative, environment => by
    apply (advances_evaluate condition environment).bind
    intro decided
    split
    · exact advances_evaluate consequence environment
    · exact advances_evaluate alternative environment

theorem advances_evaluateEach : (children : List Node) → ∀ environment, Advances (evaluateEach environment children)
  | [], _ => advances_pure ""
  | child :: children, environment =>
    (advances_evaluate child environment).bind fun _ =>
      (advances_evaluateEach children environment).bind fun _ => advances_pure _
end

/-- What an evaluation comes to inside a tree lies on its way. -/
theorem leads_of_reaches {environment environment' : Environment} {node inner : Node} {session middle : Session}
    {within : Bool} (reaches : Reaches environment node session within environment' inner middle) :
    session.Leads middle := by
  induction reaches with
  | here => exact .refl _
  | child passed inside ih => exact (after_ok passed ▸ advances_evaluateEach _ _ _).trans ih
  | consequence passed holds inside ih => exact (after_ok passed ▸ advances_evaluate _ _ _).trans ih
  | alternative passed fails inside ih => exact (after_ok passed ▸ advances_evaluate _ _ _).trans ih
  | round comes inside ih => exact (leads_of_comes (fun item => advances_evaluate _ _) comes).trans ih

theorem Formed.of_choice : {condition first second : Node} → (choice condition first second).Formed →
    condition.Decides ∧ first.Formed ∧ second.Formed
  | _, .block _, .block _, formed => formed

theorem Formed.of_loop : {iterable binding : String} → {body : Node} → {position : Option Position} →
    (loop iterable binding body position).Formed → body.Formed
  | _, _, .block _, _, formed => formed

/-- In a tree in shape, whatever an evaluation comes to is in shape. -/
theorem formed_of_reaches {environment environment' : Environment} {node inner : Node} {session middle : Session}
    {within : Bool} (reaches : Reaches environment node session within environment' inner middle)
    (formed : node.Formed) : inner.Formed := by
  induction reaches with
  | here => exact formed
  | child passed inside ih => exact ih (formedEach_iff.mp formed _ (by simp))
  | consequence passed holds inside ih => exact ih formed.of_choice.2.1
  | alternative passed fails inside ih => exact ih formed.of_choice.2.2
  | round comes inside ih => exact ih formed.of_loop

end Node
end Stencil
