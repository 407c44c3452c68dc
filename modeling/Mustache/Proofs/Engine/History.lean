import Mustache.Proofs.Run

/-! The cache over the life of an engine. It only ever grows at its end, by templates that
were compiled from what the loader returned when it was asked, and the loader is asked
neither for what is cached nor twice within a step. Main result: the history of the cache
after any steps, and what one more step adds to it. -/

namespace Mustache

open Template

/-- Templates with distinct identifiers are all found under their own. -/
theorem Cache.find?_of_mem {cache : Cache} {t : Template} (hnodup : cache.identifiers.Nodup)
    (ht : t ∈ cache.templates) : cache.find? t.identifier = some t := by
  cases h : cache.find? t.identifier with
  | none => exact absurd (List.mem_map_of_mem ht) (find?_eq_none_iff.1 h)
  | some t' =>
    have hmem : t' ∈ cache.templates := List.mem_of_find?_eq_some h
    rw [List.inj_on_of_nodup_map hnodup hmem ht (identifier_of_find?_eq_some h)]

/-! ### Growth -/

/-- A computation that started in `s` and ended in `out` has cached just the templates
`added` and asked the loader for these and the identifiers `missed`, each once and none
that was cached. An identifier was missed only if its failure is what ended it all. -/
structure Grew (setup : Setup) (s : Session) {α : Type} (out : Except Failure α × Session)
    (added : List Template) (missed : List String) : Prop where
  templates : out.2.cache.templates = s.cache.templates ++ added
  requests : out.2.requests.toList =
    s.requests.toList ++ (added.map Template.identifier ++ missed)
  compiled : ∀ t ∈ added, setup.compiled t.identifier = .ok t
  blame : missed = [] ∨ ∃ identifier failure, missed = [identifier] ∧
    out.1 = .error failure ∧ setup.compiled identifier = .error failure
  unknown : ∀ identifier ∈ added.map Template.identifier ++ missed,
    identifier ∉ s.cache.identifiers
  nodup : (added.map Template.identifier ++ missed).Nodup

namespace Grew

variable {setup : Setup} {s : Session} {α β : Type} {out : Except Failure α × Session}
  {added : List Template} {missed : List String}

/-- What leaves the cache and the requests be lets nothing grow. -/
theorem of_eq (hcache : out.2.cache = s.cache) (hrequests : out.2.requests = s.requests) :
    Grew setup s out [] [] where
  templates := by simp [hcache]
  requests := by simp [hrequests]
  compiled := by simp
  blame := .inl rfl
  unknown := by simp
  nodup := by simp

theorem congr {out' : Except Failure β × Session} (h : Grew setup s out added missed)
    (hresult : ∀ failure, out.1 = .error failure → out'.1 = .error failure)
    (hcache : out'.2.cache = out.2.cache) (hrequests : out'.2.requests = out.2.requests) :
    Grew setup s out' added missed where
  templates := by rw [hcache, h.templates]
  requests := by rw [hrequests, h.requests]
  compiled := h.compiled
  blame := h.blame.imp_right fun ⟨identifier, failure, hmissed, hfail, hcompiled⟩ =>
    ⟨identifier, failure, hmissed, hresult _ hfail, hcompiled⟩
  unknown := h.unknown
  nodup := h.nodup

theorem map {cache : Cache} {sink sink' : Sink} (f : α → β)
    (h : Grew setup (.start cache sink) out added missed) :
    Grew setup (.start cache sink') (out.1.map f, out.2) added missed := by
  have h' : Grew setup (.start cache sink') out added missed :=
    ⟨h.templates, h.requests, h.compiled, h.blame, h.unknown, h.nodup⟩
  refine h'.congr ?_ rfl rfl
  intro failure hfailure
  rw [hfailure]
  rfl

theorem identifiers (h : Grew setup s out added missed) :
    out.2.cache.identifiers = s.cache.identifiers ++ added.map Template.identifier := by
  rw [Cache.identifiers, h.templates, List.map_append]
  rfl

theorem trans {a : α} {s' : Session} {added' : List Template} {missed' : List String}
    {out' : Except Failure β × Session} (h : Grew setup s (.ok a, s') added missed)
    (h' : Grew setup s' out' added' missed') :
    Grew setup s out' (added ++ added') missed' := by
  obtain rfl : missed = [] := by simpa using h.blame
  have hids := h.identifiers
  have hunknown := h'.unknown
  rw [show s'.cache.identifiers = _ from hids] at hunknown
  exact {
    templates := by rw [h'.templates, h.templates, List.append_assoc]
    requests := by
      rw [h'.requests, show s'.requests.toList = _ from h.requests]
      simp
    compiled := fun t ht => (List.mem_append.1 ht).elim (h.compiled t) (h'.compiled t)
    blame := h'.blame
    unknown := by
      intro identifier hmem
      rw [List.map_append, List.append_assoc, List.mem_append] at hmem
      obtain hmem | hmem := hmem
      · exact h.unknown _ (by simpa using hmem)
      · exact fun hin => hunknown _ hmem (List.mem_append_left _ hin)
    nodup := by
      rw [List.map_append, List.append_assoc]
      refine List.Nodup.append (by simpa using h.nodup) h'.nodup ?_
      exact fun identifier hin hin' => hunknown _ hin' (List.mem_append_right _ hin) }

end Grew

theorem Setup.fetch_cache_of_error {setup : Setup} {identifier : String} {s : Session}
    {failure : Failure} (h : (setup.fetch identifier s).1 = .error failure) :
    (setup.fetch identifier s).2.cache = s.cache := by
  cases hfind : s.cache.find? identifier with
  | some t => rw [fetch_of_find?_eq_some hfind]
  | none =>
    cases hcompiled : setup.compiled identifier with
    | ok t => simp [fetch_of_compiled_eq_ok hfind hcompiled] at h
    | error failure' => rw [fetch_of_compiled_eq_error hfind hcompiled]

/-- One fetch grows the cache by at most one template. -/
theorem exists_grew_fetch (setup : Setup) (identifier : String) (s : Session) :
    ∃ added missed, Grew setup s (setup.fetch identifier s) added missed := by
  cases hfind : s.cache.find? identifier with
  | some t =>
    rw [Setup.fetch_of_find?_eq_some hfind]
    exact ⟨[], [], .of_eq rfl rfl⟩
  | none =>
    have hunknown := Cache.find?_eq_none_iff.1 hfind
    cases hcompiled : setup.compiled identifier with
    | ok t =>
      obtain ⟨rfl, -⟩ := Setup.compiled_eq_ok_iff.1 hcompiled
      rw [Setup.fetch_of_compiled_eq_ok hfind hcompiled]
      exact ⟨[t], [], rfl, by simp, by simpa using hcompiled, .inl rfl, by simpa using hunknown,
        by simp⟩
    | error failure =>
      rw [Setup.fetch_of_compiled_eq_error hfind hcompiled]
      exact ⟨[], [identifier], by simp, by simp, by simp,
        .inr ⟨identifier, failure, rfl, rfl, hcompiled⟩, by simpa using hunknown, by simp⟩

/-- All that rendering does grows the cache. -/
theorem congruence_exists_grew (setup : Setup) : Run.Congruence (fun _ => True) fun _ r _ =>
    ∀ s, ∃ added missed, Grew setup s (r s) added missed where
  pure _ _ := ⟨[], [], .of_eq rfl rfl⟩
  reject _ _ := ⟨[], [], .of_eq rfl rfl⟩
  throw _ _ := ⟨[], [], .of_eq rfl rfl⟩
  log _ _ := ⟨[], [], .of_eq rfl rfl⟩
  bind {α β r r' f f'} hr hf s := by
    obtain ⟨added, missed, h⟩ := hr s
    rw [Run.bind_apply]
    generalize r s = out at h ⊢
    obtain ⟨_ | a, s'⟩ := out
    · exact ⟨added, missed, h.congr (by rintro _ ⟨⟩; rfl) rfl rfl⟩
    · obtain ⟨added', missed', h'⟩ := hf a s'
      exact ⟨added ++ added', missed', h.trans h'⟩
  write text s := by
    rw [Run.write_apply]
    refine ⟨[], [], ?_⟩
    split
    · exact .of_eq rfl rfl
    · split <;> exact .of_eq rfl rfl
  calling _ _ s := by
    rw [Run.calling_apply]
    exact ⟨[], [], .of_eq rfl rfl⟩
  reporting {α r r'} identifier hr s := by
    obtain ⟨added, missed, h⟩ := hr s
    obtain ⟨events, hreporting⟩ := Run.exists_reporting_apply s identifier r
    rw [hreporting]
    exact ⟨added, missed, h.congr (fun _ he => he) rfl rfl⟩

namespace Engine

/-! ### Steps -/

theorem steps_nil (engine : Engine) : (engine.steps []).2 = engine := rfl

theorem steps_cons (engine : Engine) (s : Step) (rest : List Step) :
    (engine.steps (s :: rest)).2 = ((engine.step s).2.steps rest).2 := rfl

theorem steps_append (engine : Engine) (front back : List Step) :
    (engine.steps (front ++ back)).2 = ((engine.steps front).2.steps back).2 := by
  induction front generalizing engine with
  | nil => rfl
  | cons s front ih => exact ih _

/-- The engine that steps lead to from one that has compiled nothing yet. -/
def reached (setup : Setup) (before : List Step) : Engine := ((fresh setup).steps before).2

def sourcesAfter (loader : Loader) (before : List Step) : Loader := before.foldl loaderAfter loader

theorem reached_append_singleton (setup : Setup) (before : List Step) (s : Step) :
    reached setup (before ++ [s]) = ((reached setup before).step s).2 :=
  steps_append _ _ _

theorem reached_setup (setup : Setup) (before : List Step) :
    (reached setup before).setup = { setup with loader := sourcesAfter setup.loader before } := by
  induction before using List.reverseRecOn with
  | nil => rfl
  | append_singleton before s ih =>
    rw [reached_append_singleton, sourcesAfter, List.foldl_append]
    simp only [step, ih]
    rfl

theorem exists_grew_step (engine : Engine) (s : Step) : ∃ added missed,
    Grew engine.setup (.start engine.cache .unlimited)
      ((engine.step s).1.result, (engine.step s).1.session) added missed := by
  have hgrew := congruence_exists_grew engine.setup
  have hfetch := exists_grew_fetch engine.setup
  cases s with
  | compile identifiers =>
    obtain ⟨added, missed, h⟩ :=
      hgrew.compileAll_self hfetch identifiers (.start engine.cache .unlimited)
    exact ⟨added, missed, h.map _⟩
  | render identifier context sink =>
    obtain ⟨added, missed, h⟩ :=
      hgrew.render_self hfetch identifier (fun _ _ => trivial) (.start engine.cache sink)
    exact ⟨added, missed, h.map _⟩
  | fetch identifier =>
    obtain ⟨added, missed, h⟩ := hfetch identifier (.start engine.cache .unlimited)
    exact ⟨added, missed, h.map _⟩
  | get | setSource | removeSource | writeFile => exact ⟨[], [], .of_eq rfl rfl⟩

/-- Steps keep the templates that are cached, in the same order and in front of new ones. -/
theorem templates_prefix_steps (engine : Engine) (later : List Step) :
    engine.cache.templates <+: (engine.steps later).2.cache.templates := by
  induction later generalizing engine with
  | nil => exact List.prefix_rfl
  | cons s rest ih =>
    obtain ⟨added, missed, h⟩ := exists_grew_step engine s
    have hstep : engine.cache.templates <+: (engine.step s).2.cache.templates :=
      ⟨added, h.templates.symm⟩
    exact hstep.trans (ih (engine.step s).2)

/-! ### History -/

theorem nodup_identifiers_reached (setup : Setup) (before : List Step) :
    (reached setup before).cache.identifiers.Nodup := by
  induction before using List.reverseRecOn with
  | nil => exact List.nodup_nil
  | append_singleton before s ih =>
    obtain ⟨added, missed, h⟩ := exists_grew_step (reached setup before) s
    rw [reached_append_singleton]
    refine (congrArg List.Nodup h.identifiers).mpr (ih.append h.nodup.of_append_left ?_)
    exact fun identifier hin hin' => h.unknown _ (List.mem_append_left _ hin') hin

/-- The template was first cached in one of the steps. Its source is the text of what the
loader then returned for its identifier, and its nodes are what that source compiles to. -/
def CachedDuring (setup : Setup) (before : List Step) (t : Template) : Prop :=
  ∃ front s back, before = front ++ s :: back ∧
    t.identifier ∉ (reached setup front).cache.identifiers ∧
    t ∈ ((reached setup front).step s).2.cache.templates ∧
    ∃ bytes, (sourcesAfter setup.loader front).load t.identifier = .ok bytes ∧
      decode setup.encoding t.identifier bytes = .ok t.source.toList ∧
      parse setup.maxDepth t.source.toList = .ok t.nodes

theorem cachedDuring_of_mem {setup : Setup} {before : List Step} {t : Template}
    (ht : t ∈ (reached setup before).cache.templates) : CachedDuring setup before t := by
  induction before using List.reverseRecOn with
  | nil => exact absurd ht List.not_mem_nil
  | append_singleton before s ih =>
    obtain ⟨added, missed, h⟩ := exists_grew_step (reached setup before) s
    rw [reached_append_singleton] at ht
    have hmem := ht
    rw [show ((reached setup before).step s).2.cache.templates = _ from h.templates,
      List.mem_append] at hmem
    obtain hmem | hmem := hmem
    · obtain ⟨front, s', back, rfl, hcached⟩ := ih hmem
      exact ⟨front, s', back ++ [s], by simp, hcached⟩
    · obtain ⟨-, hbytes⟩ := Setup.compiled_eq_ok_iff.1 (h.compiled t hmem)
      rw [reached_setup] at hbytes
      refine ⟨before, s, [], rfl, h.unknown _ ?_, ht, hbytes⟩
      exact List.mem_append_left _ (List.mem_map_of_mem hmem)

/-- The history of the cache, whatever steps led to it and whatever step `s` comes next.
Each entry is found under its own identifier and has been so since it was compiled from
what the loader then returned. The next step keeps the entries as they are and in order
and only adds new ones behind them, also if it fails; it asks the loader for these, at
most for one more on which it fails, and never for what is cached already. A fetch that
fails adds nothing, at whatever point of a computation. -/
theorem cache_history (setup : Setup) (before : List Step) (s : Step) :
    ((reached setup before).cache.identifiers.Nodup ∧
      ∀ t ∈ (reached setup before).cache.templates,
        (reached setup before).cache.find? t.identifier = some t ∧
        CachedDuring setup before t) ∧
    (∃ added missed,
      (reached setup (before ++ [s])).cache.templates =
        (reached setup before).cache.templates ++ added ∧
      ((reached setup before).step s).1.session.requests.toList =
        added.map Template.identifier ++ missed ∧
      (added.map Template.identifier ++ missed).Nodup ∧
      (∀ identifier ∈ added.map Template.identifier ++ missed,
        identifier ∉ (reached setup before).cache.identifiers) ∧
      (missed = [] ∨ ∃ identifier failure, missed = [identifier] ∧
        ((reached setup before).step s).1.result = .error failure)) ∧
    ∀ identifier session failure,
      ((reached setup before).setup.fetch identifier session).1 = .error failure →
      ((reached setup before).setup.fetch identifier session).2.cache = session.cache := by
  have hnodup := nodup_identifiers_reached setup before
  refine ⟨⟨hnodup, ?_⟩, ?_, fun _ _ _ => Setup.fetch_cache_of_error⟩
  · intro t ht
    exact ⟨Cache.find?_of_mem hnodup ht, cachedDuring_of_mem ht⟩
  · obtain ⟨added, missed, h⟩ := exists_grew_step (reached setup before) s
    refine ⟨added, missed, ?_, by simpa [Session.start] using h.requests, h.nodup, h.unknown, ?_⟩
    · rw [reached_append_singleton]
      exact h.templates
    · obtain hnil | ⟨identifier, failure, hmissed, hresult, -⟩ := h.blame
      · exact .inl hnil
      · exact .inr ⟨identifier, failure, hmissed, hresult⟩

/-- An engine over a single source, the letter `x` under the name `a`. -/
def oneSource : Setup := ⟨.memory [("a", .bytes [120])] 9, "u8", 3⟩

theorem cache_history_changed_source :
    (⟨"a", "x", [.text "x"]⟩ ∈
        (reached oneSource [.fetch "a", .setSource "a" (.bytes [121])]).cache.templates ∧
      CachedDuring oneSource [.fetch "a", .setSource "a" (.bytes [121])] ⟨"a", "x", [.text "x"]⟩) ∧
    (oneSource.fetch "b" (.start .empty .unlimited)).1 = .error (Loader.notFound "b") ∧
    (oneSource.fetch "b" (.start .empty .unlimited)).2.cache = .empty := by
  have htemplates :
      (reached oneSource [.fetch "a", .setSource "a" (.bytes [121])]).cache.templates =
      [⟨"a", "x", [.text "x"]⟩] := by cbv
  have hmem : ⟨"a", "x", [.text "x"]⟩ ∈
      (reached oneSource [.fetch "a", .setSource "a" (.bytes [121])]).cache.templates :=
    htemplates ▸ List.mem_singleton_self _
  have hfail : (oneSource.fetch "b" (.start .empty .unlimited)).1 =
      .error (Loader.notFound "b") := rfl
  exact ⟨⟨hmem, ((cache_history oneSource _ (.get "a")).1.2 _ hmem).2⟩, hfail,
    (cache_history oneSource [] (.get "a")).2.2 "b" _ _ hfail⟩

end Engine

end Mustache
