import Mustache.Proofs.Run

/-! Two engines in lockstep. What a render writes, how it ends and which lambdas it calls
depends on the loader and the cache only through the template, or the failure, that each
identifier stands for. Main result: renders agree whenever these do. -/

namespace Mustache

/-- Outcomes that nobody can tell apart by how they ended, by what was written or by the
lambdas that were called. -/
structure Outcome.Agrees (out out' : Outcome) : Prop where
  result : out.result = out'.result
  sink : out.session.sink = out'.session.sink
  calls : out.session.calls = out'.session.calls

/-- With the templates in the cache, `setup` takes each identifier for what `meaning`
says: cached templates are its successes, and compiling yields it for all others. -/
structure Setup.Reads (setup : Setup) (meaning : String → Except Failure Template)
    (cache : Cache) : Prop where
  cached : ∀ identifier t, cache.find? identifier = some t → meaning identifier = .ok t
  uncached : ∀ identifier, cache.find? identifier = none →
    setup.compiled identifier = meaning identifier

variable {setup setup' : Setup} {meaning : String → Except Failure Template}

theorem Setup.reads_empty (setup : Setup) : setup.Reads setup.compiled .empty where
  cached := fun _ _ h => nomatch h
  uncached := fun _ _ => rfl

theorem Setup.Reads.add {cache : Cache} (h : setup.Reads meaning cache) {t : Template}
    (ht : meaning t.identifier = .ok t) : setup.Reads meaning (cache.add t) where
  cached identifier t' hfind := by
    rw [Cache.find?_add] at hfind
    cases hcached : cache.find? identifier with
    | some t'' =>
      rw [hcached] at hfind
      exact (h.cached identifier t'' hcached).trans (congrArg _ (Option.some.inj hfind))
    | none =>
      rw [hcached, Option.none_or] at hfind
      split at hfind
      · subst_vars
        rwa [← Option.some.inj hfind]
      · cases hfind
  uncached identifier hfind := by
    rw [Cache.find?_add, Option.or_eq_none_iff] at hfind
    exact h.uncached identifier hfind.1

/-- A fetch yields what its identifier stands for, and all keep what they stand for. -/
theorem Setup.Reads.fetch {s : Session} (h : setup.Reads meaning s.cache) (identifier : String) :
    (setup.fetch identifier s).1 = meaning identifier ∧
    setup.Reads meaning (setup.fetch identifier s).2.cache ∧
    (setup.fetch identifier s).2.sink = s.sink ∧
    (setup.fetch identifier s).2.calls = s.calls := by
  cases hfind : s.cache.find? identifier with
  | some t =>
    rw [fetch_of_find?_eq_some hfind]
    exact ⟨(h.cached identifier t hfind).symm, h, rfl, rfl⟩
  | none =>
    have huncached := h.uncached identifier hfind
    cases hcompiled : setup.compiled identifier with
    | ok t =>
      obtain ⟨rfl, -⟩ := compiled_eq_ok_iff.1 hcompiled
      rw [fetch_of_compiled_eq_ok hfind hcompiled]
      rw [hcompiled] at huncached
      exact ⟨huncached, h.add huncached.symm, rfl, rfl⟩
    | error failure =>
      rw [fetch_of_compiled_eq_error hfind hcompiled]
      exact ⟨hcompiled.symm.trans huncached, h, rfl, rfl⟩

/-- Sessions in which the same was written and called, and each identifier stands for the
same. -/
structure Lockstep (setup setup' : Setup) (meaning : String → Except Failure Template)
    (s s' : Session) : Prop where
  sink : s.sink = s'.sink
  calls : s.calls = s'.calls
  reads : setup.Reads meaning s.cache
  reads' : setup'.Reads meaning s'.cache

namespace Lockstep

/-- The building blocks of rendering keep sessions in lockstep and yield the same. -/
theorem congruence (setup setup' : Setup) (meaning : String → Except Failure Template) :
    Run.Congruence (fun _ => True) fun _ r r' =>
      Run.Respect (Lockstep setup setup' meaning) r r' where
  toComposes := Run.Respect.composes _
  reject _ _ _ h := ⟨rfl, h⟩
  throw _ _ _ h := ⟨rfl, h⟩
  log _ _ _ h := ⟨rfl, h.sink, h.calls, h.reads, h.reads'⟩
  write text s s' h := by
    rw [Run.write_apply, Run.write_apply, h.sink]
    split
    · exact ⟨rfl, h⟩
    · split
      · exact ⟨rfl, rfl, h.calls, h.reads, h.reads'⟩
      · exact ⟨rfl, h⟩
  calling _ _ s s' h := by
    rw [Run.calling_apply, Run.calling_apply, h.calls]
    exact ⟨rfl, h.sink, rfl, h.reads, h.reads'⟩
  reporting {α r r'} identifier hr s s' h := by
    obtain ⟨hresult, h⟩ := hr s s' h
    obtain ⟨events, hreporting⟩ := Run.exists_reporting_apply s identifier r
    obtain ⟨events', hreporting'⟩ := Run.exists_reporting_apply s' identifier r'
    rw [hreporting, hreporting']
    exact ⟨hresult, h.sink, h.calls, h.reads, h.reads'⟩

theorem fetch {s s' : Session} (h : Lockstep setup setup' meaning s s') (identifier : String) :
    (setup.fetch identifier s).1 = (setup'.fetch identifier s').1 ∧
    Lockstep setup setup' meaning (setup.fetch identifier s).2 (setup'.fetch identifier s').2 := by
  obtain ⟨hresult, hreads, hsink, hcalls⟩ := h.reads.fetch identifier
  obtain ⟨hresult', hreads', hsink', hcalls'⟩ := h.reads'.fetch identifier
  exact ⟨hresult.trans hresult'.symm, hsink.trans (h.sink.trans hsink'.symm),
    hcalls.trans (h.calls.trans hcalls'.symm), hreads, hreads'⟩

/-- Renders agree when each identifier stands for the same to both engines. -/
theorem render_agrees {engine engine' : Engine} (h : engine.setup.Reads meaning engine.cache)
    (h' : engine'.setup.Reads meaning engine'.cache)
    (hdepth : engine.setup.maxDepth = engine'.setup.maxDepth) (identifier : String)
    (context : Datum) (sink : Sink) :
    (engine.outcome (.render identifier context sink)).Agrees
      (engine'.outcome (.render identifier context sink)) := by
  have hstart : Lockstep engine.setup engine'.setup meaning (.start engine.cache sink)
      (.start engine'.cache sink) := ⟨rfl, rfl, h, h'⟩
  obtain ⟨hresult, hend⟩ := (congruence engine.setup engine'.setup meaning).render
    (fun name _ _ hs => hs.fetch name) hdepth identifier (fun _ _ => trivial) _ _ hstart
  exact ⟨congrArg (Except.map fun _ => (none : Option Template)) hresult, hend.sink, hend.calls⟩

end Lockstep

end Mustache
