import Mustache.Engine
import Mustache.Proofs.Run

/-! Rendering step by step. A walk over nodes starts inner walks, over the bodies of its
sections, over the templates that it includes and over what lambdas return, and waits for
each of them to end. So at any moment some walks are under way, each inside the next one. The
machine here takes one step at a time and knows nothing of the steps to come. Main result:
the machine comes to an end, and then it has done what rendering does; until then each walk
is one level deeper than the one around it, none is deeper than the limit, and the contexts
of all of them are in shape. -/

namespace Mustache

open Template

/-- The contexts in which nodes are rendered: a record or a scalar, and around it a record
or nothing. -/
structure Contexts.InShape (c : Contexts) : Prop where
  current : c.current.isRecord ∨ ∃ s, c.current = .scalar s
  outer : ∀ v ∈ c.outer, v.isRecord

structure Walk where
  depth : Nat
  contexts : Contexts
  /-- The walks that it starts next, by their contexts and nodes. -/
  inner : List (Contexts × List Node)
  /-- The nodes that it comes to when those have ended. -/
  nodes : List Node

namespace Setup

/-- Renders a node, down to the walks that it starts. -/
def visit (setup : Setup) (limit depth : Nat) (c : Contexts) :
    Node → Run (List (Contexts × List Node))
  | .text content => do
    Run.write content
    return []
  | .field name => do
    Run.write (← Run.calling (c.text name))
    return []
  | .inclusion name =>
    if limit ≤ depth then Run.reject (tooDeep limit name)
    else do return [(c, (← setup.fetch name).nodes)]
  | .block sense name body children =>
    if limit ≤ depth then Run.reject (tooDeep limit name)
    else match Showing.ofSection sense c name with
      | .bodies contexts => return contexts.map (·, children)
      | .expansion f => do return [(c, ← expand (limit - (depth + 1)) f body)]

/-- Takes a step. The innermost walk starts the next walk inside it, or it goes on to its
next node, or it ends. -/
def advance (setup : Setup) (limit : Nat) : List Walk → Run (List Walk)
  | [] => return []
  | ⟨depth, c, next :: inner, nodes⟩ :: around =>
    return ⟨depth + 1, next.1, [], next.2⟩ :: ⟨depth, c, inner, nodes⟩ :: around
  | ⟨depth, c, [], node :: nodes⟩ :: around => do
    return ⟨depth, c, ← setup.visit limit depth c node, nodes⟩ :: around
  | ⟨_, _, [], []⟩ :: around => return around

/-- Takes `n` steps. -/
def advances (setup : Setup) (limit : Nat) : Nat → List Walk → Run (List Walk)
  | 0, walks => return walks
  | n + 1, walks => do advances setup limit n (← setup.advance limit walks)

/-- A render of which the walk over the template takes `n` steps only. What is still under
way after these is the result. -/
def renderSteps (setup : Setup) (n : Nat) (identifier : String) (context : Datum) :
    Run (List Walk) := do
  match context.bind with
  | .error failure => throw failure
  | .ok (.record fields) =>
    Run.log (.renderStarted identifier)
    reporting identifier do
      let t ← setup.fetch identifier
      setup.advances setup.maxDepth n [⟨0, ⟨.record fields, none⟩, [], t.nodes⟩]
  | .ok _ => Run.reject (misshapen identifier context)

end Setup

/-! ### What holds of the walks under way -/

/-- Contexts in shape that raise only what `G` allows. -/
structure Contexts.Sound (G : Failure → Prop) (c : Contexts) : Prop where
  inShape : c.InShape
  raises : ∀ failure, c.Raises failure → G failure

/-- A walk is not too deep, and neither are the walks that it starts next. The contexts of
all of them are sound. -/
structure Walk.Proper (limit : Nat) (G : Failure → Prop) (walk : Walk) : Prop where
  depth_le : walk.depth ≤ limit
  sound : walk.contexts.Sound G
  inner : ∀ next ∈ walk.inner, walk.depth < limit ∧ next.1.Sound G

/-- The walks under way, innermost first, are proper, the outermost one has depth zero, and
each other one is a level deeper than the one around it. -/
structure Walk.Nested (limit : Nat) (G : Failure → Prop) (walks : List Walk) : Prop where
  levels : walks.IsChain fun inner around => inner.depth = around.depth + 1
  outermost : ∀ walk ∈ walks.getLast?, walk.depth = 0
  proper : ∀ walk ∈ walks, walk.Proper limit G

/-- Where a computation yields something, it is as `P` says. -/
def Run.Yields {α : Type} (P : α → Prop) (r : Run α) : Prop :=
  ∀ s a s', r s = (.ok a, s') → P a

namespace Run.Yields

variable {α β : Type} {P : α → Prop} {Q : β → Prop}

theorem pure {a : α} (h : P a) : Yields P (Pure.pure a) := by
  rintro _ _ _ ⟨⟩
  exact h

theorem throw {failure : Failure} : Yields P (MonadExcept.throw failure) := by
  rintro _ _ _ ⟨⟩

theorem bind {r : Run α} {f : α → Run β} (hr : Yields P r) (hf : ∀ a, P a → Yields Q (f a)) :
    Yields Q (r >>= f) := by
  intro s b s' h
  rw [Run.bind_apply] at h
  split at h
  · rename_i a s₁ hout
    exact hf a (hr s a s₁ hout) s₁ b s' h
  · cases h

theorem trivial (r : Run α) : Yields (fun _ => True) r := fun _ _ _ _ => True.intro

theorem reporting {r : Run α} {identifier : String} (hr : Yields P r) :
    Yields P (Setup.reporting identifier r) := by
  intro s a s' h
  obtain ⟨events, hreporting⟩ := Run.exists_reporting_apply s identifier r
  rw [hreporting, Prod.mk.injEq] at h
  exact hr s a (r s).2 (Prod.ext h.1 rfl)

end Run.Yields

namespace Contexts

variable {c : Contexts}

theorem InShape.enter {v : Value} (hc : c.current.isRecord)
    (hv : v.isRecord ∨ ∃ s, v = .scalar s) : (c.enter v).InShape where
  current := hv
  outer := by
    rintro _ ⟨⟩
    exact hc

/-- A section shows its body in contexts that are in shape. Only a record has fields, so what
becomes the outer context of a body is one. -/
theorem InShape.ofSection (h : c.InShape) {sense : Template.Sense} {name : String}
    {contexts : List Contexts} (hshowing : Showing.ofSection sense c name = .bodies contexts) :
    ∀ c' ∈ contexts, c'.InShape := by
  have hrecord {v : Value} (hfield : c.current.field? name = some v) : c.current.isRecord := by
    cases hcurrent : c.current with
    | record fields => rfl
    | _ => simp [hcurrent, Value.field?] at hfield
  rw [Showing.ofSection_eq_ofFound] at hshowing
  obtain ⟨f, -, heq⟩ | ⟨entered, henters, heq⟩ :=
    Showing.ofFound_cases sense (c.current.field? name)
  · rw [heq] at hshowing
    cases hshowing
  · rw [heq] at hshowing
    cases hshowing
    refine List.forall_mem_map.2 fun e he => ?_
    cases henters e he with
    | nothing => exact h
    | record hfield => exact enter (hrecord hfield) (.inl rfl)
    | scalar hfield => exact enter (hrecord hfield) (.inr ⟨_, rfl⟩)
    | item hfield _ hv => exact enter (hrecord hfield) (.inl hv)

theorem Sound.ofSection {G : Failure → Prop} (h : c.Sound G) {sense : Template.Sense}
    {name : String} {contexts : List Contexts}
    (hshowing : Showing.ofSection sense c name = .bodies contexts) :
    ∀ c' ∈ contexts, c'.Sound G := fun c' hc' =>
  ⟨h.inShape.ofSection hshowing c' hc',
    fun failure hraises => h.raises failure (raises_of_mem_bodies hshowing hc' hraises)⟩

end Contexts

namespace Walk

variable {limit : Nat} {G : Failure → Prop} {walks : List Walk}

theorem yields_visit (setup : Setup) {depth : Nat} {c : Contexts} (hc : c.Sound G) (node : Node) :
    (setup.visit limit depth c node).Yields fun inner =>
      ∀ next ∈ inner, depth < limit ∧ next.1.Sound G := by
  cases node with
  | text content => exact .bind (.trivial _) fun _ _ => .pure (List.forall_mem_nil _)
  | field name =>
    exact .bind (.trivial _) fun _ _ =>
      .bind (.trivial _) fun _ _ => .pure (List.forall_mem_nil _)
  | inclusion name =>
    rw [Setup.visit]
    split
    · exact .throw
    · rename_i hroom
      exact .bind (.trivial _) fun t _ =>
        .pure (List.forall_mem_singleton.2 ⟨Nat.lt_of_not_le hroom, hc⟩)
  | block sense name body children =>
    rw [Setup.visit]
    split
    · exact .throw
    · rename_i hroom
      split
      · rename_i contexts hshowing
        refine .pure (List.forall_mem_map.2 fun c' hc' => ?_)
        exact ⟨Nat.lt_of_not_le hroom, hc.ofSection hshowing c' hc'⟩
      · exact .bind (.trivial _) fun nodes _ =>
          .pure (List.forall_mem_singleton.2 ⟨Nat.lt_of_not_le hroom, hc⟩)

namespace Nested

variable {walk : Walk} {around : List Walk}

theorem nil : Nested limit G [] := ⟨.nil, nofun, nofun⟩

theorem cons_iff : Nested limit G (walk :: around) ↔ walk.Proper limit G ∧
    walk.depth = around.head?.elim 0 (·.depth + 1) ∧ Nested limit G around := by
  cases around with
  | nil =>
    refine ⟨fun h => ⟨h.proper walk List.mem_cons_self, h.outermost walk rfl, nil⟩, ?_⟩
    rintro ⟨hproper, hdepth, -⟩
    exact ⟨.singleton walk, by rintro _ ⟨⟩; exact hdepth, List.forall_mem_singleton.2 hproper⟩
  | cons outer around =>
    constructor
    · rintro ⟨hlevels, houtermost, hproper⟩
      rw [List.isChain_cons_cons] at hlevels
      rw [List.forall_mem_cons] at hproper
      exact ⟨hproper.1, hlevels.1, hlevels.2, houtermost, hproper.2⟩
    · rintro ⟨hproper, hdepth, h⟩
      exact ⟨List.isChain_cons_cons.2 ⟨hdepth, h.levels⟩, h.outermost,
        List.forall_mem_cons.2 ⟨hproper, h.proper⟩⟩

theorem yields_advance (h : Nested limit G walks) (setup : Setup) :
    (setup.advance limit walks).Yields (Nested limit G) := by
  match walks with
  | [] => exact .pure nil
  | ⟨depth, c, next :: inner, nodes⟩ :: around =>
    obtain ⟨⟨hle, hc, hinner⟩, hdepth, haround⟩ := cons_iff.1 h
    rw [List.forall_mem_cons] at hinner
    obtain ⟨⟨hlt, hnext⟩, hinner⟩ := hinner
    have hwaiting : Nested limit G (⟨depth, c, inner, nodes⟩ :: around) :=
      cons_iff.2 ⟨⟨hle, hc, hinner⟩, hdepth, haround⟩
    exact .pure (cons_iff.2 ⟨⟨hlt, hnext, List.forall_mem_nil _⟩, rfl, hwaiting⟩)
  | ⟨depth, c, [], node :: nodes⟩ :: around =>
    obtain ⟨⟨hle, hc, -⟩, hdepth, haround⟩ := cons_iff.1 h
    exact .bind (yields_visit setup hc node) fun inner hinner =>
      .pure (cons_iff.2 ⟨⟨hle, hc, hinner⟩, hdepth, haround⟩)
  | ⟨_, _, [], []⟩ :: around => exact .pure (cons_iff.1 h).2.2

theorem yields_advances (h : Nested limit G walks) (setup : Setup) (n : Nat) :
    (setup.advances limit n walks).Yields (Nested limit G) := by
  induction n generalizing walks with
  | zero => exact .pure h
  | succ n ih => exact .bind (h.yields_advance setup) fun _ h => ih h

end Nested

end Walk

namespace Setup

variable {setup : Setup} {limit : Nat}

/-- The walks under way nest, whenever one looks. -/
theorem yields_renderSteps (setup : Setup) (n : Nat) (identifier : String) (context : Datum) :
    (setup.renderSteps n identifier context).Yields
      (Walk.Nested setup.maxDepth context.Raises) := by
  unfold renderSteps
  split
  · exact .throw
  · rename_i fields hbind
    refine .bind (.trivial _) fun _ _ => .reporting (.bind (.trivial _) fun t _ => ?_)
    have hsound : Contexts.Sound context.Raises ⟨.record fields, none⟩ :=
      ⟨⟨.inl rfl, nofun⟩, fun _ => Contexts.raises_of_bind hbind⟩
    have hstart : Walk.Proper setup.maxDepth context.Raises
        ⟨0, ⟨.record fields, none⟩, [], t.nodes⟩ := ⟨Nat.zero_le _, hsound, nofun⟩
    exact (Walk.Nested.cons_iff.2 ⟨hstart, rfl, .nil⟩).yields_advances setup n
  · exact .throw

/-! ### Where the steps lead -/

/-- From some walks under way the machine comes to what `r` does. -/
def ComesTo (setup : Setup) (limit : Nat) (walks : List Walk) (s : Session)
    (r : Run (List Walk)) : Prop :=
  ∃ n, setup.advances limit n walks s = r s

theorem advances_add (m n : Nat) (walks : List Walk) :
    setup.advances limit (m + n) walks =
      setup.advances limit m walks >>= setup.advances limit n := by
  induction m generalizing walks with
  | zero => rw [Nat.zero_add, advances, pure_bind]
  | succ m ih =>
    rw [Nat.succ_add, advances, advances, bind_assoc]
    exact bind_congr fun walks => ih walks

namespace ComesTo

variable {walks : List Walk} {s : Session}

theorem refl : ComesTo setup limit walks s (pure walks) := ⟨0, rfl⟩

theorem advance : ComesTo setup limit walks s (setup.advance limit walks) :=
  ⟨1, congrFun (bind_pure (setup.advance limit walks)) s⟩

/-- What comes to the walks that `r` leaves goes on from there. -/
theorem bind {α : Type} {r : Run α} {left : α → List Walk} {f : α → Run (List Walk)}
    (h : ComesTo setup limit walks s (r >>= fun a => pure (left a)))
    (hf : ∀ a s', r s = (.ok a, s') → ComesTo setup limit (left a) s' (f a)) :
    ComesTo setup limit walks s (r >>= f) := by
  obtain ⟨m, hm⟩ := h
  rw [Run.bind_pure_apply] at hm
  cases hout : r s with
  | mk result s' =>
    rw [hout] at hm
    cases result with
    | error failure =>
      refine ⟨m, hm.trans ?_⟩
      rw [Run.bind_apply, hout]
      rfl
    | ok a =>
      obtain ⟨n, hn⟩ := hf a s' hout
      refine ⟨m + n, ?_⟩
      rw [advances_add, Run.bind_apply, hm, Run.bind_apply, hout]
      exact hn

end ComesTo

/-- Rendering a node is visiting it and then walking where the visit leads. -/
theorem renderNode_eq_visit (setup : Setup) {depth remaining : Nat}
    (hdepth : depth + remaining = limit) (c : Contexts) (node : Node) :
    setup.renderNode limit remaining c node = (setup.visit limit depth c node >>= fun inner =>
      inner.forM fun next => setup.renderNodes limit (remaining - 1) next.1 next.2) := by
  have hnone : ([] : List (Contexts × List Node)).forM
      (fun next => setup.renderNodes limit (remaining - 1) next.1 next.2) = pure () := rfl
  have hsingle (c : Contexts) (nodes : List Node) : [(c, nodes)].forM
      (fun next => setup.renderNodes limit (remaining - 1) next.1 next.2) =
        setup.renderNodes limit (remaining - 1) c nodes :=
    bind_pure (setup.renderNodes limit (remaining - 1) c nodes)
  cases node with
  | text content => simp only [renderNode, visit, bind_assoc, pure_bind, hnone, bind_pure_unit]
  | field name => simp only [renderNode, visit, bind_assoc, pure_bind, hnone, bind_pure_unit]
  | inclusion name =>
    cases remaining with
    | zero =>
      rw [visit, if_pos (by omega)]
      rfl
    | succ below =>
      rw [visit, if_neg (by omega), bind_assoc]
      exact bind_congr fun t => ((pure_bind ..).trans (hsingle c t.nodes)).symm
  | block sense name body children =>
    cases remaining with
    | zero =>
      rw [visit, if_pos (by omega)]
      rfl
    | succ below =>
      obtain rfl : below = limit - (depth + 1) := by omega
      rw [visit, if_neg (by omega), renderNode, descend]
      cases Showing.ofSection sense c name with
      | bodies contexts =>
        simp only [showBody, pure_bind, List.forM_eq_forM, List.forM_map]
        rfl
      | expansion f =>
        simp only [showBody, bind_assoc]
        exact bind_congr fun nodes => ((pure_bind ..).trans (hsingle c nodes)).symm

/-- A walk that waits for inner walks goes on to its nodes when these have ended. -/
theorem comesTo_inner {depth below : Nat} {c : Contexts} {nodes : List Node} {around : List Walk}
    {inner : List (Contexts × List Node)}
    (hinner : ∀ next ∈ inner, ∀ around s,
      ComesTo setup limit (⟨depth + 1, next.1, [], next.2⟩ :: around) s
        (setup.renderNodes limit below next.1 next.2 >>= fun _ => pure around)) (s : Session) :
    ComesTo setup limit (⟨depth, c, inner, nodes⟩ :: around) s
      ((inner.forM fun next => setup.renderNodes limit below next.1 next.2) >>= fun _ =>
        pure (⟨depth, c, [], nodes⟩ :: around)) := by
  induction inner generalizing s with
  | nil => exact .refl
  | cons next inner ih =>
    rw [List.forall_mem_cons] at hinner
    have hstarted : ComesTo setup limit (⟨depth, c, next :: inner, nodes⟩ :: around) s
        (setup.renderNodes limit below next.1 next.2 >>= fun _ =>
          pure (⟨depth, c, inner, nodes⟩ :: around)) :=
      .bind (r := pure ()) .advance fun _ s' _ => hinner.1 _ s'
    rw [List.forM_eq_forM, List.forM_cons, bind_assoc]
    exact hstarted.bind fun _ s' _ => ih hinner.2 s'

theorem comesTo_renderNodes (setup : Setup) {depth remaining : Nat}
    (hdepth : depth + remaining = limit) {c : Contexts} {G : Failure → Prop} (hc : c.Sound G)
    (nodes : List Node) (around : List Walk) (s : Session) :
    ComesTo setup limit (⟨depth, c, [], nodes⟩ :: around) s
      (setup.renderNodes limit remaining c nodes >>= fun _ => pure around) := by
  induction remaining using Nat.strong_induction_on generalizing depth c nodes around s with
  | h remaining ihLevel =>
    induction nodes generalizing s with
    | nil =>
      rw [renderNodes, pure_bind]
      exact .advance
    | cons node rest ihRest =>
      rw [renderNodes_cons, renderNode_eq_visit setup hdepth, bind_assoc, bind_assoc]
      refine ComesTo.bind .advance fun inner s' hvisit => ?_
      -- A visit starts walks only where a level is left, and so the induction on the levels
      -- reaches all of them; the rest of this walk stays on its level.
      have hinner := Walk.yields_visit setup hc node s inner s' hvisit
      refine (comesTo_inner (fun next hnext around s => ?_) s').bind fun _ s' _ => ihRest s'
      obtain ⟨hlt, hsound⟩ := hinner next hnext
      exact ihLevel _ (by omega) (by omega) hsound next.2 around s

/-- What is put behind a computation may as well be reported with it. -/
theorem reporting_bind_pure {α β : Type} (identifier : String) (r : Run α) (f : α → β) :
    (reporting identifier r >>= fun a => pure (f a)) =
      reporting identifier (r >>= fun a => pure (f a)) := by
  funext s
  rw [Run.bind_pure_apply, reporting, reporting, Run.bind_pure_apply]
  rcases r s with ⟨(e | f | fault | fault) | a, s'⟩ <;> rfl

/-- After enough steps no walk is under way any more, and all is done that a render does. -/
theorem exists_renderSteps_eq (setup : Setup) (identifier : String) (context : Datum)
    (s : Session) : ∃ n, setup.renderSteps n identifier context s =
      (setup.render identifier context >>= fun _ => pure []) s := by
  match hbind : context.bind with
  | .ok (.record fields) =>
    simp only [renderSteps, render, hbind, bind_assoc, reporting_bind_pure, Run.log,
      Run.modify_bind_apply]
    generalize { s with events := s.events.push (.renderStarted identifier) } = s₁
    cases hfetch : setup.fetch identifier s₁ with
    | mk result s₂ =>
      cases result with
      | error failure =>
        exact ⟨0, Run.reporting_congr (by rw [Run.bind_apply, Run.bind_apply, hfetch])⟩
      | ok t =>
        have hc : Contexts.Sound (fun _ => True) ⟨.record fields, none⟩ :=
          ⟨⟨.inl rfl, nofun⟩, fun _ _ => trivial⟩
        obtain ⟨n, hn⟩ := comesTo_renderNodes setup (Nat.zero_add setup.maxDepth) hc t.nodes [] s₂
        refine ⟨n, Run.reporting_congr ?_⟩
        rw [Run.bind_apply, Run.bind_apply, hfetch]
        exact hn
  | .error _ | .ok (.bool _) | .ok (.seq _) | .ok (.text _) | .ok (.scalar _) | .ok (.lambda _)
  | .ok .absent => exact ⟨0, by simp only [renderSteps, render, hbind]; rfl⟩

end Setup

namespace Engine

/-- However templates include one another and whatever lambdas return, a render comes to an
end. Each walk under way in it is exactly one level deeper than the one around it and not
deeper than the limit, in contexts that are in shape. After finitely many steps no walk is
under way any more, or one has failed, and this is how the render ends. -/
theorem render_stepwise (engine : Engine) (identifier : String) (context : Datum) (sink : Sink) :
    (∀ n walks session,
      engine.run sink (·.renderSteps n identifier context) = (.ok walks, session) →
        walks.IsChain (fun inner around => inner.depth = around.depth + 1) ∧
        (∀ walk ∈ walks.getLast?, walk.depth = 0) ∧
        ∀ walk ∈ walks, walk.depth ≤ engine.setup.maxDepth ∧ walk.contexts.InShape) ∧
    ∃ n result session,
      engine.run sink (·.renderSteps n identifier context) =
        (Except.map (fun () => []) result, session) ∧
      engine.outcome (.render identifier context sink) =
        ⟨result.map fun () => none, session⟩ := by
  constructor
  · intro n walks session h
    have hnested := Setup.yields_renderSteps engine.setup n identifier context _ walks session h
    exact ⟨hnested.levels, hnested.outermost, fun walk hwalk =>
      ⟨(hnested.proper walk hwalk).depth_le, (hnested.proper walk hwalk).sound.inShape⟩⟩
  · obtain ⟨n, hn⟩ := Setup.exists_renderSteps_eq engine.setup identifier context
      (.start engine.cache sink)
    rw [Run.bind_pure_apply] at hn
    exact ⟨n, _, _, hn, rfl⟩

end Engine

end Mustache
