import Mustache.Proofs.Engine.History
import Mustache.Proofs.Engine.Refusal
import Mustache.Proofs.Files.Faults

/-! Templates compiled in a batch: in order, up to the first one that cannot be compiled. Main
result: what a batch adds to the cache and asks of the loader is told by its list and the
cache alone; a batch that fails has done what the part of its list in front of the failure
does; and no order of a list succeeds where another one fails. -/

namespace Mustache

open Template

/-! ### What a batch has to compile -/

namespace Cache

variable {cache : Cache} {identifier : String} {identifiers rest : List String}

/-- Those of some identifiers that are not cached yet, in the order of first occurrence. -/
def missing (cache : Cache) (identifiers : List String) : List String :=
  (identifiers.filter fun identifier => identifier ∉ cache.identifiers).eraseDups

theorem mem_missing : identifier ∈ cache.missing identifiers ↔
    identifier ∈ identifiers ∧ identifier ∉ cache.identifiers := by
  simp [missing, List.mem_eraseDups]

example : missing ⟨[⟨"b", "", []⟩]⟩ ["c", "b", "a", "c"] = ["c", "a"] := by decide

theorem missing_cons_of_mem (h : identifier ∈ cache.identifiers) :
    cache.missing (identifier :: rest) = cache.missing rest := by
  simp [missing, h]

theorem missing_cons_of_not_mem {t : Template} (h : t.identifier ∉ cache.identifiers) :
    cache.missing (t.identifier :: rest) = t.identifier :: (cache.add t).missing rest := by
  have hadd (other : String) :
      other ∉ (cache.add t).identifiers ↔ other ≠ t.identifier ∧ other ∉ cache.identifiers := by
    simp [add, identifiers, and_comm]
  rw [missing, List.filter_cons_of_pos (by simpa using h), List.eraseDups_cons,
    List.filter_filter, missing]
  congr 2
  refine List.filter_congr fun other _ => ?_
  simp [decide_eq_decide.2 (hadd other), beq_eq_decide]

end Cache

namespace Setup

variable {setup : Setup} {identifier : String} {identifiers identifiers' : List String}
  {s s' : Session} {failure : Failure}

theorem compileAll_cons (identifier : String) (rest : List String) (s : Session) :
    setup.compileAll (identifier :: rest) s =
      match setup.fetch identifier s with
      | (.ok _, s) => setup.compileAll rest s
      | (.error failure, s) => (.error failure, s) := by
  change ((setup.fetch identifier >>= fun _ => pure ()) >>= fun _ => setup.compileAll rest) s = _
  rw [bind_assoc, Run.bind_apply]
  rcases setup.fetch identifier s with ⟨_ | t, s'⟩ <;> rfl

/-! ### Batches that do not fail -/

theorem exists_grew_of_fetch {t : Template} (h : setup.fetch identifier s = (.ok t, s')) :
    ∃ added, Grew setup s (Except.ok t, s') added [] ∧ ∀ rest,
      s.cache.missing (identifier :: rest) =
        added.map Template.identifier ++ s'.cache.missing rest := by
  obtain ⟨added, missed, hgrew⟩ := exists_grew_fetch setup identifier s
  rw [h] at hgrew
  obtain rfl : missed = [] := by simpa using hgrew.blame
  refine ⟨added, hgrew, fun rest => ?_⟩
  cases hfind : s.cache.find? identifier with
  | some t' =>
    rw [fetch_of_find?_eq_some hfind] at h
    cases h
    obtain rfl : added = [] := by simpa using hgrew.templates
    have hmem : identifier ∈ s.cache.identifiers := by
      rw [← Cache.identifier_of_find?_eq_some hfind]
      exact List.mem_map_of_mem (List.mem_of_find?_eq_some hfind)
    exact Cache.missing_cons_of_mem hmem
  | none =>
    cases hcompiled : setup.compiled identifier with
    | error failure =>
      rw [fetch_of_compiled_eq_error hfind hcompiled] at h
      cases h
    | ok t' =>
      obtain ⟨rfl, -⟩ := compiled_eq_ok_iff.1 hcompiled
      rw [fetch_of_compiled_eq_ok hfind hcompiled] at h
      cases h
      obtain rfl : added = [t] := by simpa [Cache.add] using hgrew.templates.symm
      exact Cache.missing_cons_of_not_mem (Cache.find?_eq_none_iff.1 hfind)

/-- A batch that does not fail caches what was missing, and asks for nothing else. -/
theorem exists_grew_of_compileAll (h : setup.compileAll identifiers s = (.ok (), s')) :
    ∃ added, Grew setup s (Except.ok (), s') added [] ∧
      added.map Template.identifier = s.cache.missing identifiers := by
  induction identifiers generalizing s with
  | nil =>
    cases h
    exact ⟨[], .of_eq rfl rfl, rfl⟩
  | cons identifier rest ih =>
    rw [compileAll_cons] at h
    split at h
    · rename_i t s₁ hfetch
      obtain ⟨added, hgrew, hmissing⟩ := exists_grew_of_fetch hfetch
      obtain ⟨added', hgrew', hadded'⟩ := ih h
      refine ⟨added ++ added', hgrew.trans hgrew', ?_⟩
      rw [List.map_append, hadded', hmissing]
    · cases h

theorem mem_identifiers_of_compileAll (h : setup.compileAll identifiers s = (.ok (), s')) :
    ∀ identifier ∈ identifiers, identifier ∈ s'.cache.identifiers := by
  intro identifier hmem
  obtain ⟨added, hgrew, hadded⟩ := exists_grew_of_compileAll h
  rw [show s'.cache.identifiers = _ from hgrew.identifiers, hadded, List.mem_append,
    Cache.mem_missing]
  exact (em _).imp_right fun hnew => ⟨hmem, hnew⟩

theorem compileAll_of_cached (h : ∀ identifier ∈ identifiers, identifier ∈ s.cache.identifiers) :
    setup.compileAll identifiers s =
      (.ok (), { s with events := s.events ++ (identifiers.map Event.cacheHit).toArray }) := by
  induction identifiers generalizing s with
  | nil => simp [compileAll, pure, ExceptT.pure, ExceptT.mk, StateT.pure]
  | cons identifier rest ih =>
    rw [List.forall_mem_cons] at h
    cases hfind : s.cache.find? identifier with
    | none => exact absurd h.1 (Cache.find?_eq_none_iff.1 hfind)
    | some t =>
      rw [compileAll_cons, fetch_of_find?_eq_some hfind]
      refine (@ih { s with events := s.events.push (.cacheHit identifier) } h.2).trans ?_
      simp

/-! ### Batches that fail -/

/-- The identifier is cached, or its source can be compiled. -/
def Compilable (setup : Setup) (cache : Cache) (identifier : String) : Prop :=
  identifier ∈ cache.identifiers ∨ ∃ t, setup.compiled identifier = .ok t

theorem compilable_of_compileAll (h : setup.compileAll identifiers s = (.ok (), s')) :
    ∀ identifier ∈ identifiers, setup.Compilable s.cache identifier := by
  intro identifier hmem
  obtain ⟨added, hgrew, -⟩ := exists_grew_of_compileAll h
  have hcached := mem_identifiers_of_compileAll h identifier hmem
  rw [show s'.cache.identifiers = _ from hgrew.identifiers, List.mem_append] at hcached
  refine hcached.imp_right fun hadded => ?_
  obtain ⟨t, ht, rfl⟩ := List.mem_map.1 hadded
  exact ⟨t, hgrew.compiled t ht⟩

/-- A batch that fails has come to the identifier at which a fetch fails. -/
theorem exists_fetch_of_compileAll (h : setup.compileAll identifiers s = (.error failure, s')) :
    ∃ front blamed back s₁, identifiers = front ++ blamed :: back ∧
      setup.compileAll front s = (.ok (), s₁) ∧
      setup.fetch blamed s₁ = (.error failure, s') := by
  induction identifiers generalizing s with
  | nil => cases h
  | cons identifier rest ih =>
    rw [compileAll_cons] at h
    split at h
    · rename_i t s₁ hfetch
      obtain ⟨front, blamed, back, s₂, rfl, hfront, hblamed⟩ := ih h
      refine ⟨identifier :: front, blamed, back, s₂, rfl, ?_, hblamed⟩
      rw [compileAll_cons, hfetch]
      exact hfront
    · rename_i failure' s₁ hfetch
      cases h
      exact ⟨[], identifier, rest, s, rfl, rfl, hfetch⟩

/-- A fetch that fails has asked the loader for its identifier, in vain, and that is all. -/
theorem fetch_eq_error (h : setup.fetch identifier s = (.error failure, s')) :
    identifier ∉ s.cache.identifiers ∧ setup.compiled identifier = .error failure ∧
      s'.cache = s.cache ∧ s'.requests = s.requests.push identifier := by
  cases hfind : s.cache.find? identifier with
  | some t =>
    rw [fetch_of_find?_eq_some hfind] at h
    cases h
  | none =>
    cases hcompiled : setup.compiled identifier with
    | ok t =>
      rw [fetch_of_compiled_eq_ok hfind hcompiled] at h
      cases h
    | error failure' =>
      rw [fetch_of_compiled_eq_error hfind hcompiled] at h
      cases h
      exact ⟨Cache.find?_eq_none_iff.1 hfind, rfl, rfl, rfl⟩

/-- What an identifier is refused for names it, unless its path cannot be looked up or its
source does not become bytes. -/
theorem Refuses.names_or_escapes (h : setup.Refuses identifier failure) :
    (∃ e, failure = .template e ∧ e.identifier = some identifier) ∨
      ((∃ fault, failure = .path fault) ∨ ∃ fault, failure = .bytes fault) ∧
        setup.loader.load identifier = .error failure := by
  cases h with
  | unavailable hload =>
    obtain rfl | ⟨limit, rfl⟩ | ⟨place, fault, rfl⟩ | hpath | hbytes := Loader.load_eq_error hload
    · exact .inl ⟨_, rfl, rfl⟩
    · exact .inl ⟨_, rfl, rfl⟩
    · exact .inl ⟨_, rfl, rfl⟩
    · exact .inr ⟨.inl hpath, hload⟩
    · exact .inr ⟨.inr hbytes, hload⟩
  | undecodable => exact .inl ⟨_, rfl, rfl⟩
  | unknownEncoding => exact .inl ⟨_, rfl, rfl⟩
  | malformed => exact .inl ⟨_, rfl, rfl⟩

/-- A batch over `front ++ blamed :: back` has failed at `blamed`, the first identifier that
cannot be compiled. It leaves the cache as the batch over `front` does, and has asked the
loader for `blamed` besides. The failure names `blamed`, unless the path of `blamed` cannot be
looked up or its source does not become bytes; then the fault of the loader escapes as it
is. -/
structure FailsAt (setup : Setup) (s : Session) (front : List String) (blamed : String)
    (failure : Failure) (s' : Session) : Prop where
  compilable : ∀ identifier ∈ front, setup.Compilable s.cache identifier
  not_compilable : ¬ setup.Compilable s.cache blamed
  atomic : ∃ s₁, setup.compileAll front s = (.ok (), s₁) ∧ s'.cache = s₁.cache ∧
    s'.requests = s₁.requests.push blamed
  names : (∃ e, failure = .template e ∧ e.identifier = some blamed) ∨
    ((∃ fault, failure = .path fault) ∨ ∃ fault, failure = .bytes fault) ∧
      setup.loader.load blamed = .error failure

theorem exists_failsAt (h : setup.compileAll identifiers s = (.error failure, s')) :
    ∃ front blamed back, identifiers = front ++ blamed :: back ∧
      setup.FailsAt s front blamed failure s' := by
  obtain ⟨front, blamed, back, s₁, rfl, hfront, hfetch⟩ := exists_fetch_of_compileAll h
  obtain ⟨hunknown, hcompiled, hcache, hrequests⟩ := fetch_eq_error hfetch
  obtain ⟨added, hgrew, -⟩ := exists_grew_of_compileAll hfront
  refine ⟨front, blamed, back, rfl, compilable_of_compileAll hfront, ?_,
    ⟨s₁, hfront, hcache, hrequests⟩, (refuses_of_compiled hcompiled).names_or_escapes⟩
  rintro (hcached | ⟨t, ht⟩)
  · refine hunknown ?_
    rw [show s₁.cache.identifiers = _ from hgrew.identifiers]
    exact List.mem_append_left _ hcached
  · cases ht.symm.trans hcompiled

/-- A batch succeeds just if all of its list can be compiled, in whatever order. -/
theorem compileAll_fst_eq_ok_iff : (setup.compileAll identifiers s).1 = .ok () ↔
    ∀ identifier ∈ identifiers, setup.Compilable s.cache identifier := by
  rcases hout : setup.compileAll identifiers s with ⟨failure | _, s'⟩
  · obtain ⟨front, blamed, back, rfl, hfails⟩ := exists_failsAt hout
    exact iff_of_false nofun fun hall => hfails.not_compilable (hall blamed (by simp))
  · exact iff_of_true rfl (compilable_of_compileAll hout)

theorem perm_of_compileAll {s₁ s₂ : Session} (hperm : identifiers.Perm identifiers')
    (h : setup.compileAll identifiers s = (.ok (), s₁))
    (h' : setup.compileAll identifiers' s = (.ok (), s₂)) :
    s₁.cache.templates.Perm s₂.cache.templates := by
  obtain ⟨added, hgrew, hadded⟩ := exists_grew_of_compileAll h
  obtain ⟨added', hgrew', hadded'⟩ := exists_grew_of_compileAll h'
  have hmem {added identifiers} {s' : Session} (hgrew : Grew setup s (Except.ok (), s') added [])
      (hadded : added.map Template.identifier = s.cache.missing identifiers) (t : Template) :
      t ∈ added ↔ setup.compiled t.identifier = .ok t ∧
        t.identifier ∈ identifiers ∧ t.identifier ∉ s.cache.identifiers := by
    rw [← Cache.mem_missing, ← hadded]
    refine ⟨fun ht => ⟨hgrew.compiled t ht, List.mem_map_of_mem ht⟩, fun ⟨hcompiled, hin⟩ => ?_⟩
    obtain ⟨t', ht', heq⟩ := List.mem_map.1 hin
    have hsame := hgrew.compiled t' ht'
    rw [heq, hcompiled] at hsame
    exact Except.ok.inj hsame ▸ ht'
  have hnodup {added} {s' : Session} (hgrew : Grew setup s (Except.ok (), s') added []) :
      added.Nodup := .of_map _ (by simpa using hgrew.nodup)
  rw [show s₁.cache.templates = _ from hgrew.templates,
    show s₂.cache.templates = _ from hgrew'.templates]
  refine List.Perm.append_left _ ((List.perm_ext_iff_of_nodup (hnodup hgrew) (hnodup hgrew')).2 ?_)
  intro t
  rw [hmem hgrew hadded, hmem hgrew' hadded', hperm.mem_iff]

/-! ### Batches -/

/-- A batch has compiled all of its list. What was missing stands behind what was cached, in
the order of first occurrence, and the loader was asked for each of these once. -/
structure Completes (setup : Setup) (s : Session) (identifiers : List String) (s' : Session) :
    Prop where
  templates : ∃ added, s'.cache.templates = s.cache.templates ++ added ∧
    added.map Template.identifier = s.cache.missing identifiers ∧
    ∀ t ∈ added, setup.compiled t.identifier = .ok t
  requests : s'.requests.toList = s.requests.toList ++ s.cache.missing identifiers
  nodup : (s.cache.missing identifiers).Nodup

theorem completes_of_compileAll (h : setup.compileAll identifiers s = (.ok (), s')) :
    setup.Completes s identifiers s' := by
  obtain ⟨added, hgrew, hadded⟩ := exists_grew_of_compileAll h
  have hrequests := hgrew.requests
  have hnodup := hgrew.nodup
  rw [List.append_nil, hadded] at hrequests hnodup
  exact ⟨⟨added, hgrew.templates, hadded, hgrew.compiled⟩, hrequests, hnodup⟩

/-- A batch from any state of the cache. If it succeeds it has compiled just what was missing,
in order, and the same batch from then on changes nothing and asks for nothing, whatever has
become of the sources. If it fails it has done what the part of the list in front of the first
identifier that cannot be compiled does, and asked for nothing behind that. Over the same
sources another order of the list succeeds just if this one does, and caches the same. -/
theorem compileAll_in_order (setup : Setup) (identifiers : List String) (s : Session) :
    (∀ s', setup.compileAll identifiers s = (.ok (), s') →
      setup.Completes s identifiers s' ∧
      ∀ (later : Setup) (s'' : Session), s''.cache = s'.cache → ∃ events,
        later.compileAll identifiers s'' = (.ok (), { s'' with events := events })) ∧
    (∀ failure s', setup.compileAll identifiers s = (.error failure, s') →
      ∃ front blamed back, identifiers = front ++ blamed :: back ∧
        setup.FailsAt s front blamed failure s') ∧
    ∀ identifiers', identifiers.Perm identifiers' →
      ((setup.compileAll identifiers s).1 = .ok () ↔
        (setup.compileAll identifiers' s).1 = .ok ()) ∧
      ∀ s₁ s₂, setup.compileAll identifiers s = (.ok (), s₁) →
        setup.compileAll identifiers' s = (.ok (), s₂) →
        s₁.cache.templates.Perm s₂.cache.templates := by
  refine ⟨fun s' h => ⟨completes_of_compileAll h, fun later s'' hcache => ?_⟩,
    fun failure s' h => exists_failsAt h,
    fun identifiers' hperm => ⟨?_, fun s₁ s₂ h h' => perm_of_compileAll hperm h h'⟩⟩
  · exact ⟨_, compileAll_of_cached fun identifier hmem =>
      hcache ▸ mem_identifiers_of_compileAll h identifier hmem⟩
  · simp only [compileAll_fst_eq_ok_iff, hperm.mem_iff]

/-- Over the single source `a`: a list that compiles, and one that does not. -/
theorem compileAll_in_order_oneSource :
    let setup := Engine.oneSource
    let start : Session := .start .empty .unlimited
    (∃ s', setup.compileAll ["a", "a"] start = (.ok (), s') ∧
      setup.Completes start ["a", "a"] s') ∧
    (∃ s', setup.compileAll ["a", "b", "a"] start = (.error (Loader.notFound "b"), s') ∧
      ∃ front blamed back, ["a", "b", "a"] = front ++ blamed :: back ∧
        setup.FailsAt start front blamed (Loader.notFound "b") s') ∧
    ["a", "b", "a"].Perm ["b", "a", "a"] ∧
      ((setup.compileAll ["a", "b", "a"] start).1 = .ok () ↔
        (setup.compileAll ["b", "a", "a"] start).1 = .ok ()) := by
  intro setup start
  have hok : (setup.compileAll ["a", "a"] start).1 = .ok () := by cbv
  have herror : (setup.compileAll ["a", "b", "a"] start).1 = .error (Loader.notFound "b") := by cbv
  have hperm : ["a", "b", "a"].Perm ["b", "a", "a"] := by decide
  have h := compileAll_in_order setup ["a", "b", "a"] start
  exact ⟨⟨_, Prod.ext hok rfl, ((compileAll_in_order setup ["a", "a"] start).1 _
      (Prod.ext hok rfl)).1⟩,
    ⟨_, Prod.ext herror rfl, h.2.1 _ _ (Prod.ext herror rfl)⟩, hperm, (h.2.2 _ hperm).1⟩

/-- A setup over a directory with the file `p`, which holds the letter `x`. -/
def onePage : Setup :=
  ⟨.files .usual ⟨[(["t"], .directory), (["t", "p"], .file [120])], []⟩ [Files.Path.ofText "t"]
    "" 9, "u8", 3⟩

/-- A batch that comes to a name with a NUL character ends in a failure that names nothing. -/
theorem compileAll_unnamed :
    (onePage.compileAll ["p", "a\x00b"] (.start .empty .unlimited)).1 =
      .error (.path .nulCharacter) ∧
    ¬ ∃ e, (onePage.compileAll ["p", "a\x00b"] (.start .empty .unlimited)).1 =
      .error (.template e) ∧ e.identifier = some "a\x00b" := by
  have hname : Files.Path.ofText ("a\x00b" ++ "") = ⟨.relative, ["a\x00b"]⟩ := by decide
  have hnul : onePage.loader.load "a\x00b" = .error (.path .nulCharacter) :=
    Loader.load_of_hasNul (by cbv) hname (by decide) rfl (by cbv)
  have hcompiled : onePage.compiled "a\x00b" = .error (.path .nulCharacter) := by
    rw [compiled, hnul]
    rfl
  have hp : onePage.compiled "p" = .ok ⟨"p", "x", [.text "x"]⟩ :=
    compiled_eq_ok_iff.2 ⟨rfl, [120], by cbv, by cbv, by with_unfolding_all rfl⟩
  have hresult : (onePage.compileAll ["p", "a\x00b"] (.start .empty .unlimited)).1 =
      .error (.path .nulCharacter) := by
    rw [compileAll_cons, fetch_of_compiled_eq_ok rfl hp]
    refine (congrArg Prod.fst (compileAll_cons ..)).trans ?_
    rw [fetch_of_compiled_eq_error (by rfl) hcompiled]
  rw [hresult]
  exact ⟨rfl, by rintro ⟨e, ⟨⟩, -⟩⟩

end Setup

end Mustache
