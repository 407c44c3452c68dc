import Mathlib
import Mustache.Engine
import Mustache.Proofs.Render.Walk
import Mustache.Proofs.Value.Lambda

/-! Computations over a session, taken apart. Rendering is made of a few building blocks:
writing, calling lambdas, logging and fetching templates. Main results: what a fetch does
in each case, and that a relation between computations which the building blocks respect
relates whole renders as soon as it relates fetches. -/

namespace Mustache

open Template

namespace Run

variable {α β : Type} (s : Session)

theorem bind_apply (r : Run α) (f : α → Run β) : (r >>= f) s =
    match r s with
    | (.ok a, s) => f a s
    | (.error failure, s) => (.error failure, s) := by
  change (match r s with | (x, s) => ExceptT.bindCont f x s) = _
  rcases r s with ⟨_ | a, s'⟩ <;> rfl

theorem bind_pure_apply (r : Run α) (f : α → β) :
    (r >>= fun a => pure (f a)) s = ((r s).1.map f, (r s).2) := by
  rw [bind_apply]
  rcases r s with ⟨_ | a, s'⟩ <;> rfl

theorem get_bind_apply (f : Session → Run β) : (get >>= f : Run β) s = f s s := rfl

theorem modify_bind_apply (g : Session → Session) (f : Unit → Run β) :
    (modify g >>= f : Run β) s = f () (g s) := rfl

theorem write_apply (text : String) : write text s =
    if text.isEmpty then (.ok (), s)
    else match s.sink.failure? with
      | none => (.ok (), { s with sink := s.sink.push text })
      | some failure => (.error failure.ofWriting, s) := rfl

theorem calling_apply (c : Calling α) : calling c s =
    ((c s.calls).1, { s with calls := (c s.calls).2 }) := rfl

theorem exists_reporting_apply (identifier : String) (r : Run α) : ∃ events,
    Setup.reporting identifier r s = ((r s).1, { (r s).2 with events := events }) := by
  unfold Setup.reporting
  rcases r s with ⟨(e | f | fault | fault) | a, s'⟩ <;> exact ⟨_, rfl⟩

/-- What is reported depends on what the computation does from this session. -/
theorem reporting_congr {s : Session} {identifier : String} {r r' : Run α} (h : r s = r' s) :
    Setup.reporting identifier r s = Setup.reporting identifier r' s := by
  rw [Setup.reporting, Setup.reporting, h]

end Run

namespace Setup

variable {setup : Setup} {identifier : String} {s : Session} {t : Template} {failure : Failure}

/-! ### Fetching -/

def compiled (setup : Setup) (identifier : String) : Except Failure Template :=
  (setup.loader.load identifier).bind fun bytes =>
    (Template.compile setup.encoding setup.maxDepth identifier bytes).mapError .template

theorem compiled_eq_ok_iff : setup.compiled identifier = .ok t ↔
    t.identifier = identifier ∧ ∃ bytes, setup.loader.load identifier = .ok bytes ∧
      decode setup.encoding identifier bytes = .ok t.source.toList ∧
      parse setup.maxDepth t.source.toList = .ok t.nodes := by
  constructor
  · intro h
    unfold compiled Template.compile at h
    cases hload : setup.loader.load identifier with
    | error failure => simp [hload, Except.bind] at h
    | ok bytes =>
      cases hdecode : decode setup.encoding identifier bytes with
      | error e => simp [hload, hdecode, Except.bind, Except.mapError] at h
      | ok source =>
        cases hparse : parse setup.maxDepth source with
        | error e => simp [hload, hdecode, hparse, Except.bind, Except.mapError] at h
        | ok nodes =>
          simp only [hload, hdecode, hparse, Except.bind, Except.mapError, Except.ok.injEq] at h
          subst h
          exact ⟨rfl, bytes, rfl, by simpa using hdecode, by simpa using hparse⟩
  · rintro ⟨rfl, bytes, hload, hdecode, hparse⟩
    simp [compiled, Template.compile, hload, hdecode, hparse, Except.bind, Except.mapError]

theorem fetch_of_find?_eq_some (h : s.cache.find? identifier = some t) :
    setup.fetch identifier s =
      (.ok t, { s with events := s.events.push (.cacheHit identifier) }) := by
  rw [fetch, Run.get_bind_apply, h]
  rfl

theorem fetch_of_compiled_eq_ok (h : s.cache.find? identifier = none)
    (hcompiled : setup.compiled identifier = .ok t) :
    setup.fetch identifier s = (.ok t,
      { s with
        cache := s.cache.add t
        requests := s.requests.push identifier
        events := s.events.push (.compiled identifier t.nodes.length) }) := by
  unfold compiled at hcompiled
  rw [fetch, Run.get_bind_apply, h]
  simp only [Run.modify_bind_apply, hcompiled]
  rfl

theorem fetch_of_compiled_eq_error (h : s.cache.find? identifier = none)
    (hcompiled : setup.compiled identifier = .error failure) :
    setup.fetch identifier s = (.error failure,
      { s with
        requests := s.requests.push identifier
        events := match failure with
          | .template e => s.events.push (.compileFailed identifier e.kind e.position)
          | _ => s.events }) := by
  unfold compiled at hcompiled
  rw [fetch, Run.get_bind_apply, h]
  simp only [Run.modify_bind_apply, hcompiled]
  cases failure <;> rfl

theorem fetch_frame (setup : Setup) (identifier : String) (s : Session) (sink : Sink)
    (calls : Array String) :
    setup.fetch identifier { s with sink := sink, calls := calls } =
      ((setup.fetch identifier s).1,
        { (setup.fetch identifier s).2 with sink := sink, calls := calls }) := by
  have hcache : ({ s with sink := sink, calls := calls } : Session).cache = s.cache := rfl
  cases hfind : s.cache.find? identifier with
  | some t => rw [fetch_of_find?_eq_some hfind, fetch_of_find?_eq_some (hcache ▸ hfind)]
  | none =>
    cases hcompiled : setup.compiled identifier with
    | ok t =>
      rw [fetch_of_compiled_eq_ok hfind hcompiled,
        fetch_of_compiled_eq_ok (hcache ▸ hfind) hcompiled]
    | error failure =>
      rw [fetch_of_compiled_eq_error hfind hcompiled,
        fetch_of_compiled_eq_error (hcache ▸ hfind) hcompiled]

theorem fetch_sink (setup : Setup) (identifier : String) (s : Session) :
    (setup.fetch identifier s).2.sink = s.sink :=
  congrArg (fun run => run.2.sink) (setup.fetch_frame identifier s s.sink s.calls)

theorem fetch_calls (setup : Setup) (identifier : String) (s : Session) :
    (setup.fetch identifier s).2.calls = s.calls :=
  congrArg (fun run => run.2.calls) (setup.fetch_frame identifier s s.sink s.calls)

/-- A fetch depends on the loader only through what it yields. -/
theorem fetch_congr {setup' : Setup} (h : setup.compiled identifier = setup'.compiled identifier) :
    setup.fetch identifier = setup'.fetch identifier := by
  unfold fetch
  unfold compiled at h
  rw [h]

end Setup

/-! ### Relations that rendering respects -/

theorem TemplateError.kind_ofSyntaxIn_ne (source : List Char) (e : SyntaxError) :
    (ofSyntaxIn source e).kind ≠ .renderIOFailure := by
  obtain ⟨defect, offset⟩ := e
  cases defect <;> exact nofun

theorem Setup.kind_tooDeep_ne (limit : Nat) (name : String) :
    (tooDeep limit name).kind ≠ .renderIOFailure :=
  nofun

namespace Run

/-- A relation between computations that putting computations together respects. -/
structure Composes (P : (α : Type) → Run α → Run α → Prop) : Prop where
  pure : ∀ {α : Type} (a : α), P α (Pure.pure a) (Pure.pure a)
  bind : ∀ {α β : Type} {r r' : Run α} {f f' : α → Run β},
    P α r r' → (∀ a, P β (f a) (f' a)) → P β (r >>= f) (r' >>= f')

/-- A relation between computations that the building blocks of a walk over nodes respect,
with the exception of fetching, where the context raises only what `G` allows. -/
structure Walking (G : Failure → Prop) (P : (α : Type) → Run α → Run α → Prop) : Prop
    extends Composes P where
  reject : ∀ {α : Type} {e : TemplateError}, e.kind ≠ .renderIOFailure →
    P α (Run.reject e) (Run.reject e)
  write : ∀ text, P Unit (Run.write text) (Run.write text)
  calling : ∀ {α : Type} {c : Calling α}, c.Appends → c.FailsAs G →
    P α (Run.calling c) (Run.calling c)

/-- A relation between computations that the building blocks of rendering respect, with the
exception of fetching. -/
structure Congruence (G : Failure → Prop) (P : (α : Type) → Run α → Run α → Prop) : Prop
    extends Walking G P where
  throw : ∀ {α : Type} {failure : Failure}, G failure →
    P α (MonadExcept.throw failure) (MonadExcept.throw failure)
  log : ∀ event, P Unit (Run.log event) (Run.log event)
  reporting : ∀ {α : Type} {r r' : Run α} (identifier : String),
    P α r r' → P α (Setup.reporting identifier r) (Setup.reporting identifier r')

variable {G : Failure → Prop} {P : (α : Type) → Run α → Run α → Prop} {setup setup' : Setup}

theorem Composes.forM (h : Composes P) {α : Type} {xs : List α} {f f' : α → Run Unit}
    (hf : ∀ x ∈ xs, P Unit (f x) (f' x)) : P Unit (xs.forM f) (xs.forM f') := by
  induction xs with
  | nil => exact h.pure ()
  | cons x xs ih =>
    rw [List.forall_mem_cons] at hf
    exact h.bind hf.1 fun _ => ih hf.2

theorem Composes.forM_forall₂ (h : Composes P) {α : Type} {xs xs' : List α}
    {f f' : α → Run Unit} (hf : List.Forall₂ (fun x x' => P Unit (f x) (f' x')) xs xs') :
    P Unit (xs.forM f) (xs'.forM f') := by
  induction hf with
  | nil => exact h.pure ()
  | cons hx _ ih => exact h.bind hx fun _ => ih

namespace Walking

theorem expand (h : Walking G P) (remaining : Nat) {f : Lambda}
    (hf : ∀ body failure, f.call body = .error failure → G failure) (body : String) :
    P _ (Setup.expand remaining f body) (Setup.expand remaining f body) := by
  refine h.bind (h.calling (f.appends_apply body) fun _ => hf body) fun text => ?_
  dsimp only
  split
  · exact h.pure _
  · exact h.reject (TemplateError.kind_ofSyntaxIn_ne _ _)

theorem renderNodes (h : Walking G P)
    (hfetch : ∀ name, P _ (setup.fetch name) (setup'.fetch name)) (limit remaining : Nat)
    {c : Contexts} (hc : ∀ failure, c.Raises failure → G failure) (nodes : List Node) :
    P _ (setup.renderNodes limit remaining c nodes)
      (setup'.renderNodes limit remaining c nodes) := by
  induction remaining using Nat.strong_induction_on generalizing c nodes with
  | h remaining ih =>
    rw [Setup.renderNodes_eq_forM, Setup.renderNodes_eq_forM]
    refine h.forM fun node _ => ?_
    cases node with
    | text content => exact h.write content
    | field name =>
      exact h.bind (h.calling (c.appends_text name) ((c.failsAs_text name).mono hc)) h.write
    | inclusion name =>
      cases remaining with
      | zero => exact h.reject (Setup.kind_tooDeep_ne limit name)
      | succ below =>
        exact h.bind (hfetch name) fun t => ih below below.lt_succ_self hc t.nodes
    | block sense name body children =>
      cases remaining with
      | zero => exact h.reject (Setup.kind_tooDeep_ne limit name)
      | succ below =>
        change P _ (setup.showBody limit below c body children _)
          (setup'.showBody limit below c body children _)
        cases hshowing : Showing.ofSection sense c name with
        | bodies contexts =>
          refine h.forM fun c' hmem => ih below below.lt_succ_self (fun failure hraises => ?_) _
          exact hc failure (Contexts.raises_of_mem_bodies hshowing hmem hraises)
        | expansion f =>
          refine h.bind (h.expand below (fun body failure hcall => ?_) body) fun nodes =>
            ih below below.lt_succ_self hc nodes
          exact hc failure (Contexts.raises_of_expansion hshowing hcall)

end Walking

namespace Congruence

/-- Renders are related if fetches are, and the walks over nodes. -/
theorem render_of_renderNodes (h : Congruence G P)
    (hfetch : ∀ name, P _ (setup.fetch name) (setup'.fetch name))
    (hnodes : ∀ c : Contexts, (∀ failure, c.Raises failure → G failure) → ∀ nodes,
      P _ (setup.renderNodes setup.maxDepth setup.maxDepth c nodes)
        (setup'.renderNodes setup'.maxDepth setup'.maxDepth c nodes))
    (identifier : String) {context : Datum}
    (hcontext : ∀ failure, context.Raises failure → G failure) :
    P _ (setup.render identifier context) (setup'.render identifier context) := by
  unfold Setup.render
  split
  · rename_i failure hbind
    exact h.throw (hcontext failure (by rw [Datum.Raises, hbind]))
  · rename_i fields hbind
    have hc : ∀ failure, Contexts.Raises ⟨.record fields, none⟩ failure → G failure :=
      fun failure hraises => hcontext failure (Contexts.raises_of_bind hbind hraises)
    exact h.bind (h.log _) fun _ =>
      h.reporting _ (h.bind (hfetch _) fun t => hnodes _ hc t.nodes)
  · exact h.reject (fun hkind => by cases hkind)

/-- Renders are related if fetches are and the walks may go equally deep. -/
theorem render (h : Congruence G P)
    (hfetch : ∀ name, P _ (setup.fetch name) (setup'.fetch name))
    (hdepth : setup.maxDepth = setup'.maxDepth) (identifier : String) {context : Datum}
    (hcontext : ∀ failure, context.Raises failure → G failure) :
    P _ (setup.render identifier context) (setup'.render identifier context) := by
  refine h.render_of_renderNodes hfetch (fun c hc nodes => ?_) identifier hcontext
  rw [hdepth]
  exact h.renderNodes hfetch _ _ hc nodes

end Congruence

theorem Composes.compileAll (h : Composes P)
    (hfetch : ∀ name, P _ (setup.fetch name) (setup'.fetch name)) (identifiers : List String) :
    P _ (setup.compileAll identifiers) (setup'.compileAll identifiers) := by
  induction identifiers with
  | nil => exact h.pure _
  | cons identifier rest ih => exact h.bind (h.bind (hfetch _) fun _ => h.pure _) fun _ => ih

/-- Started in sessions that `R` relates, two computations yield the same and end in such
sessions again. -/
def Respect (R : Session → Session → Prop) {α : Type} (r r' : Run α) : Prop :=
  ∀ s s', R s s' → (r s).1 = (r' s').1 ∧ R (r s).2 (r' s').2

theorem Respect.composes (R : Session → Session → Prop) :
    Composes fun _ r r' => Respect R r r' where
  pure _ _ _ h := ⟨rfl, h⟩
  bind {α β r r' f f'} hr hf s s' h := by
    obtain ⟨hresult, h⟩ := hr s s' h
    rw [bind_apply, bind_apply]
    generalize r s = out, r' s' = out' at hresult h ⊢
    obtain ⟨result, s⟩ := out
    obtain ⟨result', s'⟩ := out'
    obtain rfl : result = result' := hresult
    cases result with
    | error failure => exact ⟨rfl, h⟩
    | ok a => exact hf a s s' h

/-! The same for properties of a single computation, which do not tell what the second one
would be. -/

section Single

variable {P : (α : Type) → Run α → Prop} {α β : Type}

theorem Composes.bind_self (h : Composes fun α r _ => P α r) {r : Run α} {f : α → Run β}
    (hr : P α r) (hf : ∀ a, P β (f a)) : P β (r >>= f) :=
  @Composes.bind _ h α β r r f f hr hf

theorem Composes.forM_self (h : Composes fun α r _ => P α r) {xs : List α} {f : α → Run Unit}
    (hf : ∀ x ∈ xs, P Unit (f x)) : P Unit (xs.forM f) :=
  @Composes.forM _ h α xs f f hf

theorem Composes.compileAll_self (h : Composes fun α r _ => P α r)
    (hfetch : ∀ name, P _ (setup.fetch name)) (identifiers : List String) :
    P _ (setup.compileAll identifiers) :=
  @Composes.compileAll _ setup setup h hfetch identifiers

theorem Walking.renderNodes_self (h : Walking G fun α r _ => P α r)
    (hfetch : ∀ name, P _ (setup.fetch name)) (limit remaining : Nat) {c : Contexts}
    (hc : ∀ failure, c.Raises failure → G failure) (nodes : List Node) :
    P _ (setup.renderNodes limit remaining c nodes) :=
  @Walking.renderNodes G _ setup setup h hfetch limit remaining c hc nodes

theorem Congruence.reporting_self (h : Congruence G fun α r _ => P α r) (identifier : String)
    {r : Run α} (hr : P α r) : P α (Setup.reporting identifier r) :=
  @Congruence.reporting G _ h α r r identifier hr

theorem Congruence.render_self (h : Congruence G fun α r _ => P α r)
    (hfetch : ∀ name, P _ (setup.fetch name)) (identifier : String) {context : Datum}
    (hcontext : ∀ failure, context.Raises failure → G failure) :
    P _ (setup.render identifier context) :=
  @Congruence.render G _ setup setup h hfetch rfl identifier context hcontext

end Single

end Run

/-! ### Outcomes of renders -/

/-- The step was refused for nesting too deep. -/
def Outcome.IsTooDeep (out : Outcome) : Prop :=
  ∃ failure : Failure, out.result = .error failure ∧ failure.IsTooDeep

namespace Engine

variable {engine : Engine} {identifier : String} {context : Datum} {sink : Sink}

theorem result_render : (engine.outcome (.render identifier context sink)).result =
    (engine.setup.render identifier context (.start engine.cache sink)).1.map fun _ => none := rfl

theorem result_render_eq_error_iff {failure : Failure} :
    (engine.outcome (.render identifier context sink)).result = .error failure ↔
      (engine.setup.render identifier context (.start engine.cache sink)).1 = .error failure := by
  rw [result_render]
  cases (engine.setup.render identifier context (.start engine.cache sink)).1 <;>
    simp [Except.map]

end Engine

end Mustache
