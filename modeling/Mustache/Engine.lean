import Mustache.Config.Settings
import Mustache.Render
import Mustache.Value.Bind

/-! The engine: a loader with its settings and the templates compiled so far, which it
keeps for as long as it lives. Its life is a sequence of steps, some of which change
the sources behind its back. -/

namespace Mustache

def Settings.loader (settings : Settings) (host : Host) (tree : Files.FileTree) : Loader :=
  .files host tree settings.searchPath settings.extension settings.maxSourceBytes

namespace Setup

/-- The setup that settings describe, given where the sources come from. -/
def ofSettings (settings : Settings) (loader : Loader) : Setup :=
  ⟨loader, settings.encoding, settings.maxDepth⟩

def misshapen (identifier : String) (context : Datum) : TemplateError :=
  { trouble := .shape
    detail := some ("context must be record-shaped, got " ++ context.typeName)
    identifier := some identifier }

/-- Reports the template error with which a computation ends, if it does. -/
def reporting {α : Type} (identifier : String) (r : Run α) : Run α := fun s =>
  match r s with
  | (.error (.template e), s) =>
    (.error (.template e),
      { s with events := s.events.push (.renderFailed identifier e.kind e.message) })
  | outcome => outcome

/-- Renders a template. The context is bound first and has to be a record. -/
def render (setup : Setup) (identifier : String) (context : Datum) : Run Unit := do
  match context.bind with
  | .error failure => throw failure
  | .ok (.record fields) =>
    Run.log (.renderStarted identifier)
    reporting identifier do
      let t ← setup.fetch identifier
      setup.renderNodes setup.maxDepth setup.maxDepth ⟨.record fields, none⟩ t.nodes
  | .ok _ => Run.reject (misshapen identifier context)

end Setup

structure Engine where
  setup : Setup
  cache : Cache

inductive Step
  | compile (identifiers : List String)
  | render (identifier : String) (context : Datum) (sink : Sink)
  | fetch (identifier : String)
  | get (identifier : String)
  | setSource (identifier : String) (source : Source)
  | removeSource (identifier : String)
  | writeFile (path : Files.Path) (bytes : List UInt8)

/-- How a step ended, with the template that it asked for, and what it left behind. -/
structure Outcome where
  result : Except Failure (Option Template)
  session : Session

namespace Engine

/-- An engine that has compiled nothing yet. -/
def fresh (setup : Setup) : Engine := ⟨setup, .empty⟩

def run {α : Type} (engine : Engine) (sink : Sink) (r : Setup → Run α) :
    Except Failure α × Session :=
  r engine.setup (.start engine.cache sink)

def outcome (engine : Engine) : Step → Outcome
  | .compile identifiers =>
    let (result, session) := engine.run .unlimited (·.compileAll identifiers)
    ⟨result.map fun _ => none, session⟩
  | .render identifier context sink =>
    let (result, session) := engine.run sink (·.render identifier context)
    ⟨result.map fun _ => none, session⟩
  | .fetch identifier =>
    let (result, session) := engine.run .unlimited (·.fetch identifier)
    ⟨result.map some, session⟩
  | .get identifier => ⟨.ok (engine.cache.find? identifier), .start engine.cache .unlimited⟩
  | _ => ⟨.ok none, .start engine.cache .unlimited⟩

def loaderAfter (loader : Loader) : Step → Loader
  | .setSource identifier source => loader.setSource identifier source
  | .removeSource identifier => loader.removeSource identifier
  | .writeFile path bytes => loader.writeFile path bytes
  | _ => loader

def step (engine : Engine) (s : Step) : Outcome × Engine :=
  let out := engine.outcome s
  (out, ⟨{ engine.setup with loader := loaderAfter engine.setup.loader s }, out.session.cache⟩)

/-- Takes steps in order. -/
def steps (engine : Engine) : List Step → List Outcome × Engine
  | [] => ([], engine)
  | s :: rest =>
    let (out, next) := engine.step s
    let (outs, last) := next.steps rest
    (out :: outs, last)

end Engine

end Mustache
