import Mustache.Proofs.Engine.History
import Mustache.Proofs.Engine.Refusal
import Mustache.Proofs.Render.Keeping
import Mustache.Proofs.Template.Limit

/-! The height of templates. Sections and inclusions form chains, which an inclusion continues
into the nodes of the template that it names. Compiling limits the sections of such a chain
that stand in one source, rendering all of its nodes. Main result: without lambdas the two
limits agree, in that rendering refuses nothing for nesting too deep if the chains from its
template, read off the sources alone, keep to the limit. -/

namespace Mustache

open Template

namespace Engine

variable {engine : Engine} {identifier name : String} {nodes nodes' : List Node} {n : Nat}

/-! ### Templates without a limit -/

/-- What an engine has for an identifier where nesting has no limit: the nodes that are cached,
or else those to which the source compiles under some limit. -/
inductive Has (engine : Engine) (identifier : String) : List Node → Prop
  | cached {t : Template} : engine.cache.find? identifier = some t → Has engine identifier t.nodes
  | source {source : List Char} {limit : Nat} {nodes : List Node} :
      engine.cache.find? identifier = none → engine.setup.HasSource identifier source →
      parse limit source = .ok nodes → Has engine identifier nodes

theorem Has.unique (h : engine.Has identifier nodes) (h' : engine.Has identifier nodes') :
    nodes = nodes' := by
  cases h with
  | cached hfind =>
    cases h' with
    | cached hfind' => rw [Option.some.inj (hfind.symm.trans hfind')]
    | source hnone => cases hfind.symm.trans hnone
  | source hnone hsource hparse =>
    cases h' with
    | cached hfind => cases hfind.symm.trans hnone
    | source _ hsource' hparse' =>
      obtain rfl := hsource.unique hsource'
      exact eq_of_parse hparse hparse'

/-- The source of an identifier, if it has one, compiles where nesting has no limit. -/
def Compiles (engine : Engine) (identifier : String) : Prop :=
  ∀ source, engine.setup.HasSource identifier source → ∃ nodes, engine.Has identifier nodes

/-- The identifiers to which inclusions lead from one. -/
inductive Reaches (engine : Engine) (identifier : String) : String → Prop
  | refl : Reaches engine identifier identifier
  | inclusion {name inner : String} {nodes : List Node} : Reaches engine identifier name →
      engine.Has name nodes → Occurs (.inclusion inner) nodes → Reaches engine identifier inner

/-! ### Chains -/

/-- Among the nodes begins a chain of so many sections and inclusions, each inside the one in
front of it. What is inside an inclusion are the nodes of the template that it names, or
nothing if there is none. -/
inductive Chain (engine : Engine) : List Node → Nat → Prop
  | nil {nodes : List Node} : Chain engine nodes 0
  | block {nodes children : List Node} {sense : Sense} {name body : String} {n : Nat} :
      .block sense name body children ∈ nodes → Chain engine children n →
      Chain engine nodes (n + 1)
  | inclusion {nodes : List Node} {name : String} :
      .inclusion name ∈ nodes → Chain engine nodes 1
  | included {nodes inner : List Node} {name : String} {n : Nat} :
      .inclusion name ∈ nodes → engine.Has name inner → Chain engine inner n →
      Chain engine nodes (n + 1)

/-- The length of the longest chain, which is infinite if there are chains of any length. -/
noncomputable def height (engine : Engine) (nodes : List Node) : ℕ∞ :=
  ⨆ (n : ℕ) (_ : engine.Chain nodes n), (n : ℕ∞)

theorem height_le_iff {limit : Nat} :
    engine.height nodes ≤ limit ↔ ∀ n, engine.Chain nodes n → n ≤ limit := by
  simp [height, iSup_le_iff]

/-- The sections of a single source are a chain. -/
theorem chain_of_le_heightOf (h : n ≤ Template.heightOf nodes) : engine.Chain nodes n := by
  induction n generalizing nodes with
  | zero => exact .nil
  | succ n ih =>
    obtain ⟨node, hmem, hlt⟩ := lt_heightOf_iff.1 h
    cases node with
    | block sense name body children =>
      rw [Node.height] at hlt
      exact .block hmem (ih (Nat.le_of_lt_succ hlt))
    | text | field | inclusion =>
      rw [Node.height] at hlt
      exact absurd hlt n.not_lt_zero

theorem Chain.le_heightOf (h : engine.Chain nodes n)
    (hnone : ∀ name, ¬ Occurs (.inclusion name) nodes) : n ≤ Template.heightOf nodes := by
  induction h with
  | nil => exact Nat.zero_le _
  | block hmem _ ih =>
    refine lt_heightOf_iff.2 ⟨_, hmem, ?_⟩
    rw [Node.height]
    exact Nat.lt_succ_of_le (ih fun name hinner => hnone name (.inside hmem hinner))
  | inclusion hmem | included hmem => exact absurd (.here hmem) (hnone _)

end Engine

/-! ### Rendering -/

namespace Engine

/-- The cache of a run holds what the engine has, and what was cached at its start. -/
structure Serves (engine : Engine) (cache : Cache) : Prop where
  has : ∀ {identifier t}, cache.find? identifier = some t → engine.Has identifier t.nodes
  cached : ∀ {identifier}, cache.find? identifier = none → engine.cache.find? identifier = none

theorem Serves.add {engine : Engine} {cache : Cache} {t : Template} (h : engine.Serves cache)
    (ht : engine.Has t.identifier t.nodes) : engine.Serves (cache.add t) where
  has {identifier t'} hfind := by
    rw [Cache.find?_add] at hfind
    obtain hfound | ⟨-, hadded⟩ := Option.or_eq_some_iff.1 hfind
    · exact h.has hfound
    · split at hadded
      · rename_i heq
        obtain rfl := Option.some.inj hadded
        exact heq ▸ ht
      · cases hadded
  cached {identifier} hfind := by
    rw [Cache.find?_add, Option.or_eq_none_iff] at hfind
    exact h.cached hfind.1

/-- Started with such a cache and with such a sink a computation keeps both so, and it fails
for nesting too deep only as `G` allows. -/
abbrev StaysShallow (engine : Engine) (sink : Sink) (G : Failure → Prop) {α : Type}
    (r : Run α) : Prop :=
  Run.Keeps (fun s => engine.Serves s.cache ∧ s.sink.limit = sink.limit)
    (fun failure => failure.IsTooDeep → G failure) r

namespace StaysShallow

variable {engine : Engine} {sink : Sink} {G : Failure → Prop} {α : Type}

theorem unread (engine : Engine) (sink : Sink) :
    Session.Unread fun s => engine.Serves s.cache ∧ s.sink.limit = sink.limit :=
  ⟨fun _ h => h, fun _ h => h, fun _ h => h⟩

theorem write (hsink : ∀ failure, sink.Raises failure → G failure) (text : String) :
    engine.StaysShallow sink G (Run.write text) :=
  Run.Keeps.write (unread engine sink)
    (fun _ _ hs hrefused _ => hsink _ (Sink.raises_of_failure? hs.2 hrefused)) text

theorem not_isTooDeep_of_refuses {name : String} {failure : Failure}
    (h : engine.setup.Refuses name failure) (hnone : engine.cache.find? name = none)
    (hcompiles : engine.Compiles name)
    (hheight : ∀ nodes, engine.Has name nodes → heightOf nodes ≤ engine.setup.maxDepth) :
    ¬ failure.IsTooDeep := by
  cases h with
  | unavailable hload =>
    obtain rfl | ⟨limit, rfl⟩ | ⟨place, fault, rfl⟩ | ⟨fault, rfl⟩ | ⟨fault, rfl⟩ :=
      Loader.load_eq_error hload <;> exact nofun
  | undecodable | unknownEncoding => exact nofun
  | malformed hsource hparse =>
    obtain ⟨nodes, hhas⟩ := hcompiles _ hsource
    have hle := hheight nodes hhas
    cases hhas with
    | cached hfind => cases hnone.symm.trans hfind
    | source _ hsource' hparse' =>
      -- the source compiles after all
      obtain rfl := hsource.unique hsource'
      cases hparse.symm.trans (parse_of_heightOf_le hparse' hle)

theorem fetch_bind {name : String} {f : Template → Run α} (hcompiles : engine.Compiles name)
    (hheight : ∀ nodes, engine.Has name nodes → heightOf nodes ≤ engine.setup.maxDepth)
    (hf : ∀ t, engine.Has name t.nodes → engine.StaysShallow sink G (f t)) :
    engine.StaysShallow sink G (engine.setup.fetch name >>= f) := by
  intro s hs
  rw [Run.bind_apply]
  cases hfind : s.cache.find? name with
  | some t =>
    rw [Setup.fetch_of_find?_eq_some hfind]
    exact hf t (hs.1.has hfind) _ hs
  | none =>
    have hnone := hs.1.cached hfind
    cases hcompiled : engine.setup.compiled name with
    | ok t =>
      obtain ⟨rfl, bytes, hload, hdecode, hparse⟩ := Setup.compiled_eq_ok_iff.1 hcompiled
      have hhas : engine.Has t.identifier t.nodes := .source hnone ⟨bytes, hload, hdecode⟩ hparse
      rw [Setup.fetch_of_compiled_eq_ok hfind hcompiled]
      exact hf t hhas _ ⟨hs.1.add hhas, hs.2⟩
    | error failure =>
      have hshallow := not_isTooDeep_of_refuses (Setup.refuses_of_compiled hcompiled) hnone
        hcompiles hheight
      rw [Setup.fetch_of_compiled_eq_error hfind hcompiled]
      refine ⟨hs, ?_⟩
      rintro _ ⟨⟩ hdeep
      exact absurd hdeep hshallow

section Reached

variable {root : String} (hcompiles : ∀ name, engine.Reaches root name → engine.Compiles name)
  (hsink : ∀ failure, sink.Raises failure → G failure)
include hcompiles hsink

/-- The walk may go as deep as the longest chain in front of it. -/
theorem renderNodes {limit remaining : Nat} (hle : remaining ≤ engine.setup.maxDepth)
    {c : Contexts} (hc : c.LambdaFree) (hraises : ∀ failure, c.Raises failure → G failure)
    {nodes : List Node}
    (hreaches : ∀ inner, Occurs (.inclusion inner) nodes → engine.Reaches root inner)
    (hchain : ∀ n, engine.Chain nodes n → n ≤ remaining) :
    engine.StaysShallow sink G (engine.setup.renderNodes limit remaining c nodes) := by
  induction remaining using Nat.strong_induction_on generalizing c nodes with
  | h remaining ih =>
    rw [Setup.renderNodes_eq_forM]
    refine Run.Keeps.composes.forM_self fun node hnode => ?_
    cases node with
    | text content => exact write hsink content
    | field name =>
      have htext : (c.text name).FailsAs fun failure => failure.IsTooDeep → G failure :=
        (c.failsAs_text name).mono fun failure h _ => hraises failure h
      exact Run.Keeps.composes.bind_self (Run.Keeps.calling (unread engine sink) htext)
        (write hsink)
    | inclusion name =>
      have hone := hchain 1 (.inclusion hnode)
      cases remaining with
      | zero => exact absurd hone (Nat.not_succ_le_zero 0)
      | succ below =>
        have hname := hreaches name (.here hnode)
        have hinner : ∀ nodes, engine.Has name nodes → ∀ n, engine.Chain nodes n → n ≤ below :=
          fun nodes hhas n hn => Nat.le_of_succ_le_succ (hchain _ (.included hnode hhas hn))
        refine fetch_bind (hcompiles name hname) (fun nodes hhas => ?_) fun t hhas => ?_
        · have hbelow := hinner nodes hhas _ (chain_of_le_heightOf le_rfl)
          omega
        · exact ih below below.lt_succ_self (by omega) hc hraises
            (fun inner hoccurs => hname.inclusion hhas hoccurs) (hinner _ hhas)
    | block sense name body children =>
      have hone := hchain 1 (.block hnode .nil)
      cases remaining with
      | zero => exact absurd hone (Nat.not_succ_le_zero 0)
      | succ below =>
        obtain ⟨contexts, hshowing, hcontexts⟩ := hc.exists_ofSection_eq sense name
        rw [Setup.renderNode, Setup.descend, hshowing, Setup.showBody]
        refine Run.Keeps.composes.forM_self fun c' hmem => ?_
        exact ih below below.lt_succ_self (by omega) (hcontexts c' hmem)
          (fun failure h => hraises failure (Contexts.raises_of_mem_bodies hshowing hmem h))
          (fun inner hoccurs => hreaches inner (.inside hnode hoccurs))
          fun n hn => Nat.le_of_succ_le_succ (hchain _ (.block hnode hn))

theorem render (hheight : ∀ nodes, engine.Has root nodes →
      engine.height nodes ≤ engine.setup.maxDepth)
    {context : Datum} {v : Value} (hbind : context.bind = .ok v) (hfree : v.LambdaFree)
    (hraises : ∀ failure, context.Raises failure → G failure) :
    engine.StaysShallow sink G (engine.setup.render root context) := by
  rw [Setup.render, hbind]
  cases v with
  | record fields =>
    have hc : (⟨.record fields, none⟩ : Contexts).LambdaFree := ⟨hfree, nofun⟩
    have hchain : ∀ nodes, engine.Has root nodes →
        ∀ n, engine.Chain nodes n → n ≤ engine.setup.maxDepth :=
      fun nodes hhas => height_le_iff.1 (hheight nodes hhas)
    refine Run.Keeps.composes.bind_self (Run.Keeps.log (unread engine sink) _) fun _ => ?_
    refine Run.Keeps.reporting (unread engine sink) root ?_
    refine fetch_bind (hcompiles root .refl) (fun nodes hhas => ?_) fun t hhas => ?_
    · exact hchain nodes hhas _ (chain_of_le_heightOf le_rfl)
    · exact renderNodes hcompiles hsink le_rfl hc
        (fun failure h => hraises failure (Contexts.raises_of_bind hbind h))
        (fun inner hoccurs => Reaches.refl.inclusion hhas hoccurs) (hchain _ hhas)
  | bool | seq | text | scalar | lambda | absent => exact Run.Keeps.reject nofun

end Reached

end StaysShallow

theorem serves_cache (engine : Engine) : engine.Serves engine.cache :=
  ⟨fun h => .cached h, fun h => h⟩

theorem raises_of_isTooDeep {engine : Engine} {identifier : String}
    (hcompiles : ∀ name, engine.Reaches identifier name → engine.Compiles name)
    (hheight : ∀ nodes, engine.Has identifier nodes →
      engine.height nodes ≤ engine.setup.maxDepth)
    {context : Datum} {v : Value} (hbind : context.bind = .ok v) (hfree : v.LambdaFree)
    (sink : Sink) {failure : Failure}
    (h : (engine.outcome (.render identifier context sink)).result = .error failure)
    (hdeep : failure.IsTooDeep) : context.Raises failure ∨ sink.Raises failure := by
  obtain ⟨-, hfailure⟩ := StaysShallow.render hcompiles
    (fun failure h => (Or.inr h : context.Raises failure ∨ sink.Raises failure)) hheight hbind
    hfree (fun _ => .inl) (.start engine.cache sink) ⟨engine.serves_cache, rfl⟩
  exact hfailure failure (result_render_eq_error_iff.1 h) hdeep

/-- What an engine that has run from its beginning hands out was compiled under its limit. -/
theorem has_of_fetch {setup : Setup} {before : List Step} {identifier : String} {t : Template}
    (h : ((reached setup before).outcome (.fetch identifier)).result = .ok (some t)) :
    (reached setup before).Has identifier t.nodes ∧ heightOf t.nodes ≤ setup.maxDepth := by
  have hdepth : (reached setup before).setup.maxDepth = setup.maxDepth := by rw [reached_setup]
  have hresult : ((reached setup before).setup.fetch identifier
      (.start (reached setup before).cache .unlimited)).1.map some = .ok (some t) := h
  cases hfind : (reached setup before).cache.find? identifier with
  | some t' =>
    rw [Setup.fetch_of_find?_eq_some hfind] at hresult
    obtain rfl : t' = t := by simpa [Except.map] using hresult
    obtain ⟨_, _, _, _, _, _, _, _, _, hparse⟩ :=
      cachedDuring_of_mem (List.mem_of_find?_eq_some hfind)
    exact ⟨.cached hfind, heightOf_le_of_parse hparse⟩
  | none =>
    cases hcompiled : (reached setup before).setup.compiled identifier with
    | ok t' =>
      rw [Setup.fetch_of_compiled_eq_ok hfind hcompiled] at hresult
      obtain rfl : t' = t := by simpa [Except.map] using hresult
      obtain ⟨rfl, bytes, hload, hdecode, hparse⟩ := Setup.compiled_eq_ok_iff.1 hcompiled
      exact ⟨.source hfind ⟨bytes, hload, hdecode⟩ hparse, hdepth ▸ heightOf_le_of_parse hparse⟩
    | error failure =>
      rw [Setup.fetch_of_compiled_eq_error hfind hcompiled] at hresult
      cases hresult

/-- In a context without lambdas rendering refuses nothing for nesting too deep if all templates
to which inclusions lead compile where nesting has no limit, and the chains of sections and
inclusions that begin in its template keep to the limit; whatever the sections show, and
whatever the engine has done before. Where a render ends in such an error all the same, a scalar
of the context or the sink has raised it by itself. A template that has no inclusions and
compiles under the limit is such a template. -/
theorem render_of_height_le (setup : Setup) (before : List Step) (identifier : String)
    {context : Datum} {v : Value} (hbind : context.bind = .ok v) (hfree : v.LambdaFree)
    (sink : Sink) :
    let engine := reached setup before
    let out := engine.outcome (.render identifier context sink)
    ((∀ name, engine.Reaches identifier name → engine.Compiles name) →
      (∀ nodes, engine.Has identifier nodes → engine.height nodes ≤ setup.maxDepth) →
      ∀ failure, out.result = .error failure → failure.IsTooDeep →
        context.Raises failure ∨ sink.Raises failure) ∧
    ∀ t, (engine.outcome (.fetch identifier)).result = .ok (some t) →
      (∀ name, ¬ Occurs (.inclusion name) t.nodes) →
      ∀ failure, out.result = .error failure → failure.IsTooDeep →
        context.Raises failure ∨ sink.Raises failure := by
  intro engine out
  have hdepth : engine.setup.maxDepth = setup.maxDepth := by rw [reached_setup]
  rw [← hdepth]
  refine ⟨fun hcompiles hheight _ h hdeep =>
    raises_of_isTooDeep hcompiles hheight hbind hfree sink h hdeep, ?_⟩
  intro t hfetch hnone failure h hdeep
  obtain ⟨hhas, hle⟩ := has_of_fetch hfetch
  rw [← hdepth] at hle
  have hself : ∀ name, engine.Reaches identifier name → name = identifier := by
    intro name hreaches
    induction hreaches with
    | refl => rfl
    | inclusion _ hinner hoccurs ih =>
      subst ih
      exact absurd (hinner.unique hhas ▸ hoccurs) (hnone _)
  refine raises_of_isTooDeep (fun name hreaches => ?_) (fun nodes hnodes => ?_) hbind hfree sink h
    hdeep
  · rw [hself name hreaches]
    exact fun source _ => ⟨t.nodes, hhas⟩
  · rw [hnodes.unique hhas]
    exact height_le_iff.2 fun n hn => (hn.le_heightOf hnone).trans hle

/-- A source that includes another one in a section, under a limit of two levels. -/
def twoLevels : Setup := ⟨.memory
  [("a", .bytes [123, 123, 35, 115, 125, 125, 123, 123, 62, 98, 125, 125,
      123, 123, 47, 115, 125, 125]),
    ("b", .bytes [121])] 99, "u8", 2⟩

theorem render_of_height_le_twoLevels :
    (Datum.ofFields [("s", .ofNature "bool" (.bool true))]).bind =
      .ok (.record [("s", .bool true)]) ∧
    (Value.record [("s", .bool true)]).LambdaFree ∧
    (∀ name, (reached twoLevels []).Reaches "a" name → (reached twoLevels []).Compiles name) ∧
    (∀ nodes, (reached twoLevels []).Has "a" nodes → (reached twoLevels []).height nodes ≤ 2) ∧
    ∀ failure, ((reached twoLevels []).outcome
        (.render "a" (.ofFields [("s", .ofNature "bool" (.bool true))]) .unlimited)).result =
          .error failure → failure.IsTooDeep →
      (Datum.ofFields [("s", .ofNature "bool" (.bool true))]).Raises failure ∨
        Sink.unlimited.Raises failure := by
  have hbind : (Datum.ofFields [("s", .ofNature "bool" (.bool true))]).bind =
      .ok (.record [("s", .bool true)]) := rfl
  have hfree : (Value.record [("s", .bool true)]).LambdaFree :=
    .record (List.forall_mem_singleton.2 .bool)
  have hhasA : (reached twoLevels []).Has "a"
      [.block .normal "s" "\x7b\x7b>b\x7d\x7d" [.inclusion "b"]] := by
    have hparse : parse 2 "\x7b\x7b#s\x7d\x7d\x7b\x7b>b\x7d\x7d\x7b\x7b/s\x7d\x7d".toList =
        .ok [.block .normal "s" "\x7b\x7b>b\x7d\x7d" [.inclusion "b"]] := by
      with_unfolding_all rfl
    exact .source rfl ⟨_, rfl, by cbv⟩ hparse
  have hhasB : (reached twoLevels []).Has "b" [.text "y"] := by
    have hparse : parse 2 ['y'] = .ok [.text "y"] := by with_unfolding_all rfl
    exact .source rfl ⟨_, rfl, by cbv⟩ hparse
  have hreaches : ∀ name, (reached twoLevels []).Reaches "a" name → name = "a" ∨ name = "b" := by
    intro name hreaches
    induction hreaches with
    | refl => exact .inl rfl
    | inclusion _ hinner hoccurs ih =>
      obtain rfl | rfl := ih
      · obtain rfl := hinner.unique hhasA
        cases hoccurs with
        | here hmem => simp at hmem
        | inside hmem hinside =>
          obtain ⟨⟨⟩⟩ := List.mem_singleton.1 hmem
          cases hinside <;> simp_all
      · obtain rfl := hinner.unique hhasB
        cases hoccurs <;> simp_all
  have hcompiles : ∀ name, (reached twoLevels []).Reaches "a" name →
      (reached twoLevels []).Compiles name := by
    intro name hname source _
    obtain rfl | rfl := hreaches name hname
    · exact ⟨_, hhasA⟩
    · exact ⟨_, hhasB⟩
  have hheight : ∀ nodes, (reached twoLevels []).Has "a" nodes →
      (reached twoLevels []).height nodes ≤ 2 := by
    intro nodes hnodes
    obtain rfl := hnodes.unique hhasA
    refine height_le_iff.2 fun n hn => ?_
    cases hn with
    | nil => exact Nat.zero_le 2
    | block hmem hn =>
      obtain ⟨⟨⟩⟩ := List.mem_singleton.1 hmem
      cases hn with
      | nil | inclusion => decide
      | included hmem hhas hn =>
        obtain ⟨⟨⟩⟩ := List.mem_singleton.1 hmem
        obtain rfl := hhas.unique hhasB
        cases hn <;> simp_all
      | block hmem => simp at hmem
    | inclusion hmem | included hmem => simp at hmem
  exact ⟨hbind, hfree, hcompiles, hheight,
    (render_of_height_le twoLevels [] "a" hbind hfree .unlimited).1 hcompiles hheight⟩

end Engine

end Mustache
