import Mustache.Proofs.Engine.Batch
import Mustache.Proofs.Render.Extension
import Mustache.Proofs.Render.Keeping
import Mustache.Proofs.Template.Limit
import Mustache.Value.Object

/-! Templates that are compiled ahead. Once a list of templates is cached that includes none
but its own members, rendering any of them needs nothing else. Main result: without lambdas,
and with a sink that takes everything, such a render can only be refused for nesting too deep,
whatever has become of the sources, or fail because a scalar of its context has no text. -/

namespace Mustache

open Template

/-- All the named templates are cached, and they include only one another. -/
structure Cache.Closed (cache : Cache) (names : List String) : Prop where
  cached : ∀ name ∈ names, ∃ t, cache.find? name = some t
  included : ∀ name ∈ names, ∀ t, cache.find? name = some t →
    ∀ inner, Occurs (.inclusion inner) t.nodes → inner ∈ names

/-- Just these templates are cached, just these requests were made, and the sink takes
everything. -/
structure Session.Holds (cache : Cache) (requests : Array String) (s : Session) : Prop where
  cache : s.cache = cache
  requests : s.requests = requests
  limit : s.sink.limit = none

/-- With this cache and a sink that takes everything a computation asks the loader for
nothing and caches nothing, and it is refused for nesting too deep or fails as `G` allows. -/
abbrev Run.NeedsNothing (cache : Cache) (requests : Array String) (G : Failure → Prop) {α : Type}
    (r : Run α) : Prop :=
  Keeps (Session.Holds cache requests) (fun failure => failure.IsTooDeep ∨ G failure) r

namespace Run.NeedsNothing

variable {cache : Cache} {requests : Array String} {G : Failure → Prop} {α : Type}

theorem unlimited (cache : Cache) (requests : Array String) :
    Session.Unlimited (Session.Holds cache requests) where
  limit h := h.limit
  push _ h := ⟨h.cache, h.requests, h.limit⟩
  calls _ h := ⟨h.cache, h.requests, h.limit⟩
  events _ h := ⟨h.cache, h.requests, h.limit⟩

/-- A fetch of what is cached yields it. -/
theorem fetch_bind {setup : Setup} {name : String} {t : Template} {f : Template → Run α}
    (hfind : cache.find? name = some t) (hf : NeedsNothing cache requests G (f t)) :
    NeedsNothing cache requests G (setup.fetch name >>= f) := by
  intro s hs
  rw [← hs.cache] at hfind
  rw [Run.bind_apply, Setup.fetch_of_find?_eq_some hfind]
  exact hf _ ((unlimited cache requests).events _ hs)

theorem renderNodes {names : List String} (hclosed : cache.Closed names) (setup : Setup)
    (limit remaining : Nat) {c : Contexts} (hc : c.LambdaFree)
    (hraises : ∀ failure, c.Raises failure → G failure) {nodes : List Node}
    (hnodes : ∀ inner, Occurs (.inclusion inner) nodes → inner ∈ names) :
    NeedsNothing cache requests G (setup.renderNodes limit remaining c nodes) := by
  have hunlimited := unlimited cache requests
  induction remaining using Nat.strong_induction_on generalizing c nodes with
  | h remaining ih =>
    rw [Setup.renderNodes_eq_forM]
    refine Keeps.composes.forM_self fun node hnode => ?_
    cases node with
    | text content => exact Keeps.write_unlimited hunlimited content
    | field name =>
      have htext : (c.text name).FailsAs fun failure => failure.IsTooDeep ∨ G failure :=
        (c.failsAs_text name).mono fun failure h => .inr (hraises failure h)
      exact Keeps.composes.bind_self (Keeps.calling hunlimited.toUnread htext) fun text =>
        Keeps.write_unlimited hunlimited text
    | inclusion name =>
      cases remaining with
      | zero => exact Keeps.reject (.inl rfl)
      | succ below =>
        have hname := hnodes name (.here hnode)
        obtain ⟨t, ht⟩ := hclosed.cached name hname
        exact fetch_bind ht
          (ih below below.lt_succ_self hc hraises (hclosed.included name hname t ht))
    | block sense name body children =>
      cases remaining with
      | zero => exact Keeps.reject (.inl rfl)
      | succ below =>
        obtain ⟨contexts, hshowing, hcontexts⟩ := hc.exists_ofSection_eq sense name
        rw [Setup.renderNode, Setup.descend, hshowing, Setup.showBody]
        refine Keeps.composes.forM_self fun c' hmem =>
          ih below below.lt_succ_self (hcontexts c' hmem)
            (fun failure h => hraises failure (Contexts.raises_of_mem_bodies hshowing hmem h))
            fun inner hinner => hnodes inner (.inside hnode hinner)

theorem render {names : List String} (hclosed : cache.Closed names) (setup : Setup)
    {identifier : String} (hidentifier : identifier ∈ names) {context : Datum}
    {fields : List (String × Value)} (hbind : context.bind = .ok (.record fields))
    (hfree : (Value.record fields).LambdaFree) :
    NeedsNothing cache requests context.Raises (setup.render identifier context) := by
  obtain ⟨t, ht⟩ := hclosed.cached identifier hidentifier
  have hc : (⟨.record fields, none⟩ : Contexts).LambdaFree := ⟨hfree, nofun⟩
  have hunlimited := unlimited cache requests
  simp only [Setup.render, hbind]
  refine Keeps.composes.bind_self (Keeps.log hunlimited.toUnread _) fun _ => ?_
  refine Keeps.reporting hunlimited.toUnread identifier (fetch_bind ht ?_)
  exact renderNodes hclosed setup _ _ hc (fun _ => Contexts.raises_of_bind hbind)
    (hclosed.included identifier hidentifier t ht)

end Run.NeedsNothing

/-! ### Compiling ahead -/

namespace Engine

end Engine

end Mustache
