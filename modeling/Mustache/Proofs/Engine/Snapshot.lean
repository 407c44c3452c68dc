import Mustache.Proofs.Engine.History
import Mustache.Proofs.Lockstep

/-! What a render sees of the past. A template once compiled stays as it is, so an engine
renders as a new one would over sources of which those that it has compiled stand as they
stood then. Main result: an engine agrees with a new one over this snapshot after any
steps, and with a new one over its own sources if no step changed these. -/

namespace Mustache

namespace Loader

def held? (identifier : String) : Loader → Option Source
  | .memory sources _ => Fields.find? identifier sources
  | .files .. => none

def heldNames : Loader → List String
  | .memory sources _ => Fields.names sources
  | .files .. => []

theorem held?_eq_none {identifier : String} {loader : Loader}
    (h : identifier ∉ loader.heldNames) : loader.held? identifier = none := by
  cases loader with
  | memory sources maxSize =>
    have hnone : sources.find? (fun field => field.1 = identifier) = none :=
      List.find?_eq_none.2 fun field hmem heq =>
        h (List.mem_map.2 ⟨field, hmem, of_decide_eq_true heq⟩)
    rw [held?, Fields.find?, hnone]
    rfl
  | files => rfl

theorem load_memory_congr {identifier : String} {sources sources' : List (String × Source)}
    (maxSize : Nat) (h : Fields.find? identifier sources = Fields.find? identifier sources') :
    (memory sources maxSize).load identifier = (memory sources' maxSize).load identifier := by
  simp only [load, h]

end Loader

namespace Engine

/-! ### The snapshot -/

/-- The source of an identifier at the first of the steps that leaves it cached, or the
one that the steps leave behind if there is no such step. -/
def sourceSeen (engine : Engine) (identifier : String) : List Step → Option Source
  | [] => engine.setup.loader.held? identifier
  | s :: rest =>
    if identifier ∈ (engine.step s).2.cache.identifiers then engine.setup.loader.held? identifier
    else (engine.step s).2.sourceSeen identifier rest

/-- The sources as the templates of an engine see them after some steps: for what is
cached the source that it was compiled from, and the present source for all else. -/
def snapshot (setup : Setup) (before : List Step) : List (String × Source) :=
  ((reached setup before).cache.identifiers ++
      (reached setup before).setup.loader.heldNames).dedup.filterMap fun identifier =>
    ((fresh setup).sourceSeen identifier before).map (identifier, ·)

theorem identifiers_subset_steps (engine : Engine) (steps : List Step) :
    engine.cache.identifiers ⊆ (engine.steps steps).2.cache.identifiers :=
  ((engine.templates_prefix_steps steps).map Template.identifier).subset

theorem sourceSeen_of_not_mem {engine : Engine} {identifier : String} {steps : List Step}
    (h : identifier ∉ (engine.steps steps).2.cache.identifiers) :
    engine.sourceSeen identifier steps =
      (engine.steps steps).2.setup.loader.held? identifier := by
  induction steps generalizing engine with
  | nil => rfl
  | cons s rest ih =>
    rw [steps_cons] at h ⊢
    rw [sourceSeen, if_neg fun hin => h (identifiers_subset_steps _ rest hin)]
    exact ih h

/-- What is first cached in a step is seen as it was in front of this step. -/
theorem sourceSeen_of_cached {engine : Engine} {identifier : String} {front back : List Step}
    {s : Step} (h : identifier ∉ (engine.steps front).2.cache.identifiers)
    (hcached : identifier ∈ ((engine.steps front).2.step s).2.cache.identifiers) :
    engine.sourceSeen identifier (front ++ s :: back) =
      (engine.steps front).2.setup.loader.held? identifier := by
  induction front generalizing engine with
  | nil =>
    rw [steps_nil] at hcached ⊢
    rw [List.nil_append, sourceSeen, if_pos hcached]
  | cons s' front ih =>
    rw [steps_cons] at h hcached ⊢
    rw [List.cons_append, sourceSeen,
      if_neg fun hin => h (identifiers_subset_steps _ front hin)]
    exact ih h hcached

theorem find?_filterMap (identifiers : List String) (f : String → Option Source)
    (identifier : String) :
    Fields.find? identifier (identifiers.filterMap fun name => (f name).map (name, ·)) =
      if identifier ∈ identifiers then f identifier else none := by
  induction identifiers with
  | nil => rfl
  | cons name rest ih =>
    by_cases heq : name = identifier
    · subst heq
      cases h : f name <;> simp_all [Fields.find?_cons]
    · cases h : f name <;> simp_all [Fields.find?_cons, eq_comm]

theorem find?_snapshot (setup : Setup) (before : List Step) (identifier : String) :
    Fields.find? identifier (snapshot setup before) =
      (fresh setup).sourceSeen identifier before := by
  rw [snapshot, find?_filterMap]
  split
  · rfl
  · rename_i h
    rw [List.mem_dedup, List.mem_append, not_or] at h
    exact ((sourceSeen_of_not_mem h.1).trans (Loader.held?_eq_none h.2)).symm

/-- A change of a source behind a cached template is not seen. -/
example : snapshot oneSource [.fetch "a", .setSource "a" (.bytes [121])] =
    [("a", .bytes [120])] := by cbv

/-! ### Renders -/

theorem exists_sourcesAfter_memory (sources : List (String × Source)) (maxSize : Nat)
    (steps : List Step) :
    ∃ sources', sourcesAfter (.memory sources maxSize) steps = .memory sources' maxSize := by
  induction steps generalizing sources with
  | nil => exact ⟨sources, rfl⟩
  | cons s rest ih => cases s <;> exact ih _

theorem sourcesAfter_unchanged {loader : Loader} {steps : List Step}
    (h : ∀ s ∈ steps, loaderAfter loader s = loader) : sourcesAfter loader steps = loader := by
  induction steps with
  | nil => rfl
  | cons s rest ih =>
    rw [List.forall_mem_cons] at h
    rw [sourcesAfter, List.foldl_cons, h.1]
    exact ih h.2

theorem compiled_congr {setup setup' : Setup} {identifier : String}
    (hload : setup.loader.load identifier = setup'.loader.load identifier)
    (hencoding : setup.encoding = setup'.encoding) (hdepth : setup.maxDepth = setup'.maxDepth) :
    setup.compiled identifier = setup'.compiled identifier := by
  simp only [Setup.compiled, hload, hencoding, hdepth]

/-- Whatever the steps, each identifier stands for what the snapshot makes of it. -/
theorem reads_snapshot (sources : List (String × Source)) (maxSize : Nat) (encoding : String)
    (maxDepth : Nat) (before : List Step) :
    let setup : Setup := ⟨.memory sources maxSize, encoding, maxDepth⟩
    (reached setup before).setup.Reads
      (Setup.compiled ⟨.memory (snapshot setup before) maxSize, encoding, maxDepth⟩)
      (reached setup before).cache := by
  intro setup
  have hload : ∀ identifier steps, (fresh setup).sourceSeen identifier before =
      (reached setup steps).setup.loader.held? identifier →
      (sourcesAfter setup.loader steps).load identifier =
        (Loader.memory (snapshot setup before) maxSize).load identifier := by
    intro identifier steps hseen
    obtain ⟨sources', hsources⟩ := exists_sourcesAfter_memory sources maxSize steps
    rw [reached_setup, hsources] at hseen
    rw [hsources]
    exact Loader.load_memory_congr maxSize (hseen.symm.trans (find?_snapshot ..).symm)
  constructor
  · intro identifier t hfind
    obtain rfl := Cache.identifier_of_find?_eq_some hfind
    obtain ⟨front, s, back, rfl, hunknown, hmem, bytes, hbytes, hcompiled⟩ :=
      cachedDuring_of_mem (List.mem_of_find?_eq_some hfind)
    have hseen := @sourceSeen_of_cached (fresh setup) _ front back s hunknown
      (List.mem_map_of_mem hmem)
    exact Setup.compiled_eq_ok_iff.2 ⟨rfl, bytes, (hload _ _ hseen).symm.trans hbytes, hcompiled⟩
  · intro identifier hfind
    have hseen := sourceSeen_of_not_mem (Cache.find?_eq_none_iff.1 hfind)
    rw [reached_setup]
    exact compiled_congr (hload _ _ hseen) rfl rfl

/-- If no step changes a source, each identifier stands for what its source makes of it. -/
theorem reads_unchanged (setup : Setup) {before : List Step}
    (h : ∀ s ∈ before, loaderAfter setup.loader s = setup.loader) :
    (reached setup before).setup.Reads setup.compiled (reached setup before).cache := by
  constructor
  · intro identifier t hfind
    obtain rfl := Cache.identifier_of_find?_eq_some hfind
    obtain ⟨front, s, back, rfl, -, -, bytes, hbytes, hcompiled⟩ :=
      cachedDuring_of_mem (List.mem_of_find?_eq_some hfind)
    rw [sourcesAfter_unchanged fun s hs => h s (List.mem_append_left _ hs)] at hbytes
    exact Setup.compiled_eq_ok_iff.2 ⟨rfl, bytes, hbytes, hcompiled⟩
  · intro identifier _
    rw [reached_setup, sourcesAfter_unchanged h]

/-- After any steps an engine over sources in memory renders as a new one does over the
snapshot, and as a new one does over its own sources if no step has changed these. -/
theorem render_agrees_snapshot (sources : List (String × Source)) (maxSize : Nat)
    (encoding : String) (maxDepth : Nat) (before : List Step) (identifier : String)
    (context : Datum) (sink : Sink) :
    let setup : Setup := ⟨.memory sources maxSize, encoding, maxDepth⟩
    let shadow : Setup := ⟨.memory (snapshot setup before) maxSize, encoding, maxDepth⟩
    ((reached setup before).outcome (.render identifier context sink)).Agrees
      ((fresh shadow).outcome (.render identifier context sink)) ∧
    ((∀ s ∈ before, loaderAfter setup.loader s = setup.loader) →
      ((reached setup before).outcome (.render identifier context sink)).Agrees
        ((fresh setup).outcome (.render identifier context sink))) := by
  intro setup shadow
  have hdepth : (reached setup before).setup.maxDepth = maxDepth := by rw [reached_setup]
  constructor
  · exact Lockstep.render_agrees (reads_snapshot sources maxSize encoding maxDepth before)
      shadow.reads_empty hdepth identifier context sink
  · intro h
    exact Lockstep.render_agrees (reads_unchanged setup h) setup.reads_empty hdepth identifier
      context sink

theorem render_agrees_snapshot_one_source :
    (∀ s ∈ [Step.fetch "a"], loaderAfter oneSource.loader s = oneSource.loader) ∧
    ((reached oneSource [.fetch "a"]).outcome (.render "a" (.ofFields []) .unlimited)).Agrees
      ((fresh oneSource).outcome (.render "a" (.ofFields []) .unlimited)) := by
  have hunchanged : ∀ s ∈ [Step.fetch "a"],
      loaderAfter oneSource.loader s = oneSource.loader := by
    rintro s (_ | ⟨_, ⟨⟩⟩)
    rfl
  exact ⟨hunchanged, (render_agrees_snapshot [("a", .bytes [120])] 9 "u8" 3 [.fetch "a"] "a"
    (.ofFields []) .unlimited).2 hunchanged⟩

end Engine

end Mustache
