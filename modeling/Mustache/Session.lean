import Mustache.Cache
import Mustache.Value.Basic

/-! The state of a run. Rendering is a computation that may end early with a failure and
in either case leaves a session behind: the cache, the text written so far, and what
was asked of the loader, of the lambdas and of the log. -/

namespace Mustache

inductive Event
  | cacheHit (identifier : String)
  | compiled (identifier : String) (nodes : Nat)
  | compileFailed (identifier : String) (kind : ErrorKind) (position : Position)
  | renderStarted (identifier : String)
  | renderFailed (identifier : String) (kind : ErrorKind) (message : String)
deriving DecidableEq, Repr

/-- A receiver of text. One with a limit fails once it has taken that many writes, and
records nothing from then on. -/
structure Sink where
  written : Array String
  limit : Option (Nat × Failure)
deriving DecidableEq, Repr

namespace Sink

/-- A sink that takes everything. -/
def unlimited : Sink := ⟨#[], none⟩

def limited (writes : Nat) (failure : Failure) : Sink := ⟨#[], some (writes, failure)⟩

/-- What a further write raises, if it fails. -/
def failure? (sink : Sink) : Option Failure :=
  match sink.limit with
  | some (writes, failure) => if writes ≤ sink.written.size then some failure else none
  | none => none

/-- The sink after a write that does not fail. -/
def push (text : String) : Sink → Sink
  | ⟨written, limit⟩ => ⟨written.push text, limit⟩

def output (sink : Sink) : String := String.join sink.written.toList

end Sink

/-- The state of a run. -/
structure Session where
  cache : Cache
  sink : Sink
  requests : Array String
  calls : Array String
  events : Array Event
deriving Repr

/-- A state in which nothing has happened yet. -/
def Session.start (cache : Cache) (sink : Sink) : Session := ⟨cache, sink, #[], #[], #[]⟩

/-- A computation over a session that may end early. -/
abbrev Run := ExceptT Failure (StateM Session)

namespace Run

def reject {α : Type} (e : TemplateError) : Run α := throw (.template e)

def log (event : Event) : Run Unit :=
  modify fun s => { s with events := s.events.push event }

def calling {α : Type} (c : Calling α) : Run α :=
  fun ⟨cache, sink, requests, calls, events⟩ =>
    let (result, calls) := c calls
    (result, ⟨cache, sink, requests, calls, events⟩)

def write (text : String) : Run Unit := fun ⟨cache, sink, requests, calls, events⟩ =>
  if text.isEmpty then (.ok (), ⟨cache, sink, requests, calls, events⟩)
  else match sink.failure? with
    | none => (.ok (), ⟨cache, sink.push text, requests, calls, events⟩)
    | some failure => (.error failure.ofWriting, ⟨cache, sink, requests, calls, events⟩)

end Run

end Mustache
