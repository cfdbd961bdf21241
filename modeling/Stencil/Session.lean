import Stencil.Value.Basic

/-! What a render leaves behind besides its text: what is left of the streams in the data, and what happened. -/

namespace Stencil

inductive Event where
  | drawn (id : Nat) (value : Value)
  | finished (path : String) (rounds : Nat)
  deriving Repr

structure Session where
  streams : List (List Value)
  /-- What happened so far, the latest first. -/
  events : List Event
  deriving Repr

namespace Session

def empty : Session := ⟨[], []⟩

def remaining (session : Session) (id : Nat) : List Value := (session.streams[id]?).getD []

def record (session : Session) (event : Event) : Session := { session with events := event :: session.events }

def exhaust (session : Session) (id : Nat) : Session := { session with streams := session.streams.set id [] }

end Session

end Stencil
