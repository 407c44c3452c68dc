import Mathlib
import Mustache.Render

/-! The walk over nodes, taken apart. Rendering nodes is rendering each of them in turn, and
what a node does is told by its kind: it writes, it goes one level deeper, or it is refused
where no level is left. Main results: `Showing.ofFound_cases`, which says once what a section
may show, and the equations `renderNodes_eq_forM` and `renderBodies_eq_forM`, after which an
induction on the levels left reaches all nodes. -/

namespace Mustache

open Template

/-- A refusal to nest deeper. -/
def Failure.IsTooDeep : Failure → Prop
  | .template e => e.kind = .nestingTooDeep
  | .raised _ | .path _ | .bytes _ => False

/-! ### Sections -/

/-- The contexts of a body: those of its section, or contexts with a new current value. -/
def Contexts.within (c : Contexts) (entered : Option Value) : Contexts := entered.elim c c.enter

namespace Showing

/-- What a section does with `found` under its name, whatever the contexts. -/
def ofFound (sense : Sense) (found : Option Value) (c : Contexts) : Showing :=
  match sense, found with
  | .normal, none => .bodies []
  | .normal, some v => ofValue c v
  | .inverted, none => .bodies [c]
  | .inverted, some (.bool false) => .bodies [c]
  | .inverted, some _ => .bodies []

theorem ofSection_eq_ofFound (sense : Sense) (c : Contexts) (name : String) :
    ofSection sense c name = ofFound sense (c.current.field? name) c := rfl

/-- What a section may enter with `found` under its name, if it enters anything: a record or
a scalar that was found, or a record among the items that were found. -/
inductive Enters (found : Option Value) : Option Value → Prop
  | nothing : Enters found none
  | record {fields : List (String × Value)} :
      found = some (.record fields) → Enters found (some (.record fields))
  | scalar {s : Scalar} : found = some (.scalar s) → Enters found (some (.scalar s))
  | item {items : List Value} {v : Value} :
      found = some (.seq items) → v ∈ items → v.isRecord → Enters found (some v)

/-- A section is expanded by a lambda, or it shows its body once for each of some values
that it enters, or without entering any. -/
theorem ofFound_cases (sense : Sense) (found : Option Value) :
    (∃ f, found = some (.lambda f) ∧ ofFound sense found = fun _ => .expansion f) ∨
    ∃ entered : List (Option Value), (∀ e ∈ entered, Enters found e) ∧
      ofFound sense found = fun c => .bodies (entered.map c.within) := by
  cases sense with
  | inverted =>
    cases found with
    | none => exact .inr ⟨[none], List.forall_mem_singleton.2 .nothing, rfl⟩
    | some v =>
      by_cases hv : v = .bool false
      · subst hv
        exact .inr ⟨[none], List.forall_mem_singleton.2 .nothing, rfl⟩
      · refine .inr ⟨[], nofun, funext fun c => ?_⟩
        simp [ofFound]
  | normal =>
    cases found with
    | none => exact .inr ⟨[], nofun, rfl⟩
    | some v =>
      cases v with
      | absent => exact .inr ⟨[], nofun, rfl⟩
      | bool b =>
        cases b with
        | false => exact .inr ⟨[], nofun, rfl⟩
        | true => exact .inr ⟨[none], List.forall_mem_singleton.2 .nothing, rfl⟩
      | text s => exact .inr ⟨[none], List.forall_mem_singleton.2 .nothing, rfl⟩
      | lambda f => exact .inl ⟨f, rfl, rfl⟩
      | record fields =>
        exact .inr ⟨[some (.record fields)], List.forall_mem_singleton.2 (.record rfl), rfl⟩
      | scalar s => exact .inr ⟨[some (.scalar s)], List.forall_mem_singleton.2 (.scalar rfl), rfl⟩
      | seq items =>
        cases hrecords : items.filter Value.isRecord with
        | cons v records =>
          refine .inr ⟨(items.filter Value.isRecord).map some, ?_, ?_⟩
          · rw [List.forall_mem_map]
            intro v hv
            obtain ⟨hmem, hrecord⟩ := List.mem_filter.1 hv
            exact .item rfl hmem hrecord
          · funext c
            simp only [ofFound, ofValue, hrecords]
            simp [Function.comp_def, Contexts.within]
        | nil =>
          cases items with
          | nil => exact .inr ⟨[], nofun, rfl⟩
          | cons item items =>
            refine .inr ⟨[none], List.forall_mem_singleton.2 .nothing, funext fun c => ?_⟩
            simp only [ofFound, ofValue, hrecords]
            rfl
end Showing

/-! ### Nodes -/

namespace Setup

/-- Shows the body of a section from which the walk may go `below` levels deeper. -/
def showBody (setup : Setup) (limit below : Nat) (c : Contexts) (body : String)
    (children : List Node) : Showing → Run Unit
  | .bodies contexts => contexts.forM fun c => setup.renderNodes limit below c children
  | .expansion f => do setup.renderNodes limit below c (← expand below f body)

/-- Goes one level deeper into the section or template `name`, if a level is left. -/
def descend (limit : Nat) (name : String) (go : Nat → Run Unit) : Nat → Run Unit
  | 0 => Run.reject (tooDeep limit name)
  | below + 1 => go below

def renderNode (setup : Setup) (limit remaining : Nat) (c : Contexts) : Node → Run Unit
  | .text content => Run.write content
  | .field name => do Run.write (← Run.calling (c.text name))
  | .inclusion name => descend limit name (fun below => do
      setup.renderNodes limit below c (← setup.fetch name).nodes) remaining
  | .block sense name body children => descend limit name (fun below =>
      setup.showBody limit below c body children (Showing.ofSection sense c name)) remaining

variable (setup : Setup) (limit remaining : Nat)

theorem renderBodies_eq_forM (children : List Node) (contexts : List Contexts) :
    setup.renderBodies limit remaining children contexts =
      contexts.forM fun c => setup.renderNodes limit remaining c children := by
  induction contexts with
  | nil => rw [renderBodies]; rfl
  | cons c rest ih => rw [renderBodies, ih]; rfl

theorem renderNodes_cons (c : Contexts) (node : Node) (rest : List Node) :
    setup.renderNodes limit remaining c (node :: rest) =
      (do setup.renderNode limit remaining c node; setup.renderNodes limit remaining c rest) := by
  cases node with
  | text content => rw [renderNodes]; rfl
  | field name => rw [renderNodes, renderNode, bind_assoc]
  | inclusion name =>
    cases remaining with
    | zero => rw [renderNodes]; rfl
    | succ below => rw [renderNodes, renderNode, descend, bind_assoc]
  | block sense name body children =>
    cases remaining with
    | zero => rw [renderNodes]; rfl
    | succ below =>
      rw [renderNodes, renderNode, descend]
      split
      · rename_i contexts hshowing
        rw [hshowing, renderBodies_eq_forM, showBody]
      · rename_i f hshowing
        rw [hshowing, showBody, bind_assoc]

theorem renderNodes_eq_forM (c : Contexts) (nodes : List Node) :
    setup.renderNodes limit remaining c nodes =
      nodes.forM (setup.renderNode limit remaining c) := by
  induction nodes with
  | nil => rw [renderNodes]; rfl
  | cons node rest ih => rw [renderNodes_cons, ih]; rfl

theorem renderNodes_singleton (c : Contexts) (node : Node) :
    setup.renderNodes limit remaining c [node] = setup.renderNode limit remaining c node := by
  rw [renderNodes_cons, renderNodes]
  exact bind_pure _

end Setup

end Mustache
