import Mustache.Session

/-! Rendering. A walk over nodes has a current context and, for fields that a current
record lacks, one outer context. Each section and each inclusion goes one level deeper,
and a walk may go only so many levels deep, so it ends on all templates. -/

namespace Mustache

/-- What rendering and compiling depend on and do not change. -/
structure Setup where
  loader : Loader
  encoding : String
  maxDepth : Nat

/-- The contexts against which names are looked up. -/
structure Contexts where
  current : Value
  outer : Option Value

namespace Contexts

/-- The text that a field shows. A current context that is no record shows itself. -/
def text (c : Contexts) (name : String) : Calling String :=
  match c.current with
  | .record fields =>
    match Fields.find? name fields with
    | some v => v.render
    | none =>
      match c.outer.bind (·.field? name) with
      | some v => v.render
      | none => return ""
  | v => v.render

/-- The contexts of the body of a section about `v`. -/
def enter (c : Contexts) (v : Value) : Contexts := ⟨v, some c.current⟩

end Contexts

/-- How often and in which contexts a section shows its body. -/
inductive Showing
  | bodies (contexts : List Contexts)
  | expansion (f : Lambda)

namespace Showing

/-- A normal section whose field holds `v`: nothing for what is absent or false, the
body once per record of a sequence, once if the sequence has items but no record, and
with the value as current context if it is a record or a scalar. -/
def ofValue (c : Contexts) : Value → Showing
  | .absent => .bodies []
  | .bool b => .bodies (if b then [c] else [])
  | .seq items =>
    match items.filter Value.isRecord with
    | [] => .bodies (if items.isEmpty then [] else [c])
    | records => .bodies (records.map c.enter)
  | .text _ => .bodies [c]
  | .lambda f => .expansion f
  | .record fields => .bodies [c.enter (.record fields)]
  | .scalar s => .bodies [c.enter (.scalar s)]

/-- A section; the inverted one shows its body where the field is missing or false. -/
def ofSection (sense : Template.Sense) (c : Contexts) (name : String) : Showing :=
  match sense, c.current.field? name with
  | .normal, none => .bodies []
  | .normal, some v => ofValue c v
  | .inverted, none => .bodies [c]
  | .inverted, some (.bool false) => .bodies [c]
  | .inverted, some _ => .bodies []

end Showing

namespace Setup

def fetch (setup : Setup) (identifier : String) : Run Template := do
  match (← get).cache.find? identifier with
  | some t =>
    Run.log (.cacheHit identifier)
    return t
  | none =>
    modify fun s => { s with requests := s.requests.push identifier }
    let compiled := (setup.loader.load identifier).bind fun bytes =>
      (Template.compile setup.encoding setup.maxDepth identifier bytes).mapError .template
    match compiled with
    | .ok t =>
      modify fun s => { s with cache := s.cache.add t }
      Run.log (.compiled identifier t.nodes.length)
      return t
    | .error failure =>
      if let .template e := failure then
        Run.log (.compileFailed identifier e.kind e.position)
      throw failure

/-- Compiles templates ahead of rendering, in order, up to the first failure. -/
def compileAll (setup : Setup) : List String → Run Unit
  | [] => return
  | identifier :: rest => do
    discard (setup.fetch identifier)
    compileAll setup rest

/-- The refusal to go deeper into the section or template `name`. -/
def tooDeep (limit : Nat) (name : String) : TemplateError :=
  { trouble := .defect (.nestingTooDeep limit), identifier := some name }

/-- The nodes that a lambda makes of the body of a section, `remaining` levels above
the deepest one. -/
def expand (remaining : Nat) (f : Lambda) (body : String) : Run (List Template.Node) := do
  let source := (← Run.calling (f.apply body)).toList
  match Template.parse (max remaining 1) source with
  | .ok nodes => return nodes
  | .error e => Run.reject (TemplateError.ofSyntaxIn source e)

mutual

/-- Renders nodes from which the walk may go `remaining` levels deeper; `limit` is the
number of levels of the whole walk. -/
def renderNodes (setup : Setup) (limit remaining : Nat) (c : Contexts) :
    List Template.Node → Run Unit
  | [] => return
  | .text content :: rest => do
    Run.write content
    renderNodes setup limit remaining c rest
  | .field name :: rest => do
    Run.write (← Run.calling (c.text name))
    renderNodes setup limit remaining c rest
  | .inclusion name :: rest => do
    match remaining with
    | 0 => Run.reject (tooDeep limit name)
    | below + 1 =>
      let t ← setup.fetch name
      renderNodes setup limit below c t.nodes
    renderNodes setup limit remaining c rest
  | .block sense name body children :: rest => do
    match remaining with
    | 0 => Run.reject (tooDeep limit name)
    | below + 1 =>
      match Showing.ofSection sense c name with
      | .bodies contexts => renderBodies setup limit below children contexts
      | .expansion f =>
        let nodes ← expand below f body
        renderNodes setup limit below c nodes
    renderNodes setup limit remaining c rest
termination_by nodes => (remaining, nodes.length, 0)

/-- Renders the body of a section once in each of several contexts. -/
def renderBodies (setup : Setup) (limit remaining : Nat) (children : List Template.Node) :
    List Contexts → Run Unit
  | [] => return
  | c :: rest => do
    renderNodes setup limit remaining c children
    renderBodies setup limit remaining children rest
termination_by contexts => (remaining, children.length, contexts.length + 1)

end

end Setup

end Mustache
