import Mustache.Proofs.Engine.Snapshot
import Mustache.Proofs.Files.Writing

/-! Sources in a directory and in memory. A loader of the files of a directory reads no more
than one byte beyond the limit and finds files by their paths; one in memory looks names up and
sees whole sources. Main result: engines over the two cannot be told apart by any steps, files
rewritten in between included, as long as all that is asked of the loader are single names that
a file could have, and as many bytes as the limit allows can be read. Memory is taken for the
limit and not for the file, so under a large limit no file is read at all. -/

namespace Mustache

open Files

/-- A name that a file in a directory could have, or no name at all: it is neither a dot nor two
dots, there is no slash and no NUL character in it, names of files can have its characters, and
its path can be opened. -/
structure IsPlain (host : Host) (base : Place) (identifier : String) : Prop where
  dot : identifier ≠ "."
  dots : identifier ≠ ".."
  slash : '/' ∉ identifier.toList
  nul : hasNul identifier = false
  spelled : host.spells identifier = true
  short : nameIsTooLong identifier = false
  fits : placeIsTooLong (base ++ [identifier]) = false

/-- A path is resolved to a directory in which there are files alone. They are these sources, as
bytes, and may be looked at and read. -/
structure Mirrors (host : Host) (tree : FileTree) (directory : Path) (base : Place)
    (sources : List (String × Source)) : Prop where
  canonical : tree.canonical host tree.workingDirectory directory = .ok base
  there : tree.IsDirectory base
  usable : ∀ name ∈ base, IsUsable name
  files : ∀ name, Option.Rel (fun source entry => source.encode.map Entry.file = .ok entry)
    (Fields.find? name sources) (tree.entry? (base ++ [name]))
  plain : ∀ name ∈ Fields.names sources, name ≠ "" ∧ IsPlain host base name
  asked : host.asked base = none ∧ ∀ name, host.asked (base ++ [name]) = none
  opened : ∀ name, host.opened (base ++ [name]) = none

/-- There is memory for the bytes of a source within the limit and for one more. -/
def Host.CanRead (host : Host) (maxSize : Nat) : Prop :=
  maxSize < largestBytes ∧ maxSize < host.memory

variable {host : Host} {tree : FileTree} {directory : Path} {base : Place}
  {sources : List (String × Source)} {identifier name : String} {source : Source}
  {bytes : List UInt8} {maxSize : Nat}

theorem IsPlain.isUsable (h : IsPlain host base identifier) (hne : identifier ≠ "") :
    IsUsable identifier :=
  ⟨⟨by simp [isIdle, hne, h.dot], h.dots⟩, h.short⟩

/-! ### Loading -/

namespace Loader

/-- Of a source that is too large it is enough to see one byte beyond the limit. -/
theorem checkSize_take (identifier : String) (maxSize : Nat) (bytes : List UInt8) :
    checkSize identifier maxSize (bytes.take (maxSize + 1)) =
      checkSize identifier maxSize bytes := by
  rw [checkSize, checkSize, List.length_take]
  by_cases h : maxSize < bytes.length
  · rw [if_pos (by omega), if_pos h]
  · rw [if_neg (by omega), if_neg h, List.take_of_length_le (by omega)]

theorem takeBytes_of_canRead (h : host.CanRead maxSize) (content : List UInt8) :
    takeBytes host (maxSize + 1) content = .ok (content.take (maxSize + 1)) := by
  rw [takeBytes, if_neg (Nat.not_lt.mpr h.1), if_neg (Nat.not_lt.mpr h.2)]

/-- A lookup in a single directory, where the directory and the name can be resolved. -/
theorem findFile_single {name : Path} {place : Place} {found : Bool}
    (hr : Resolves host tree name directory base place) (hi : base <+: place)
    (hf : tree.isFile host place = .ok found) :
    findFile host tree name [directory] = .ok (if found then some place else none) := by
  have hinside : base.isPrefixOf place = true := List.isPrefixOf_iff_prefix.mpr hi
  cases found <;>
    simp only [findFile, hr.1, hr.2, hinside, hf, if_true, bind, Except.bind] <;> rfl

end Loader

namespace Mirrors

theorem isCanonical (h : Mirrors host tree directory base sources) : tree.IsCanonical base :=
  h.there.isCanonical h.usable

theorem not_link (h : Mirrors host tree directory base sources) (name target : String) :
    tree.entry? (base ++ [name]) ≠ some (.link target) := by
  have hfile := h.files name
  generalize Fields.find? name sources = source, tree.entry? (base ++ [name]) = entry at hfile
  cases hfile with
  | none => exact nofun
  | @some source entry hsource =>
    rintro ⟨⟩
    cases hencode : source.encode <;> simp [hencode, Except.map] at hsource

theorem exists_encode_eq (h : Mirrors host tree directory base sources)
    (hf : Fields.find? name sources = some source) :
    ∃ bytes, source.encode = .ok bytes ∧ tree.entry? (base ++ [name]) = some (.file bytes) := by
  have hfile := h.files name
  rw [hf] at hfile
  generalize tree.entry? (base ++ [name]) = entry at hfile
  cases hfile with
  | @some _ entry hsource =>
    cases hencode : source.encode with
    | error fault => simp [hencode, Except.map] at hsource
    | ok bytes =>
      rw [hencode] at hsource
      exact ⟨bytes, rfl, congrArg some (Except.ok.inj hsource).symm⟩

theorem entry_eq_none (h : Mirrors host tree directory base sources)
    (hf : Fields.find? name sources = none) : tree.entry? (base ++ [name]) = none := by
  have hfile := h.files name
  rw [hf] at hfile
  generalize tree.entry? (base ++ [name]) = entry at hfile ⊢
  cases hfile
  rfl

theorem holds (h : Mirrors host tree directory base sources)
    (hf : tree.entry? (base ++ [name]) = some (.file bytes)) :
    tree.Holds bytes [] (base ++ [name]) := by
  have hstep (front rest : Place) (heq : front ++ rest = base) :
      tree.Holds bytes front (rest ++ [name]) := by
    induction rest generalizing front with
    | nil =>
      rw [List.append_nil] at heq
      subst heq
      exact .file hf
    | cons first rest ih =>
      rw [List.append_cons] at heq
      exact .inside (h.there _ ⟨rest, heq⟩) (ih _ heq)
  exact hstep [] base rfl

theorem fits_base (h : Mirrors host tree directory base sources)
    (hp : IsPlain host base identifier) : FileTree.Fits base :=
  ⟨placeIsTooLong_of_append hp.fits, fun name hm => (h.usable name hm).2⟩

/-- Asked for no name at all, the loader finds the directory itself, which is no file. -/
theorem load_empty (h : Mirrors host tree directory base sources) (hp : IsPlain host base "") :
    (Loader.files host tree [directory] "" maxSize).load "" = .error (Loader.notFound "") := by
  obtain ⟨hspelled, hnul⟩ := FileTree.named_of_canonical h.canonical
  have hself : tree.canonical host base (Path.ofText ("" ++ "")) = .ok base := by
    have hresolve : tree.resolveFrom host host.linkLevels base [] [] = .ok ⟨base, true, []⟩ := by
      rw [FileTree.resolveFrom]
    exact FileTree.canonical_eq_ok_of_resolveFrom (p := Path.here) hresolve h.isCanonical
      hspelled hnul
  have hdirectory : tree.isFile host base = .ok false := by
    rcases FileTree.isFile_of_isCanonical host h.isCanonical with
      ⟨-, content, hc⟩ | ⟨hf, -⟩ | ⟨-, -, ⟨-, hf⟩ | ⟨access, -, hasked⟩⟩
    · cases (h.there base List.prefix_rfl).symm.trans hc.entry
    · exact hf
    · exact absurd (h.fits_base hp) hf
    · cases h.asked.1.symm.trans hasked
  have hfind : Loader.findFile host tree (Path.ofText ("" ++ "")) [directory] = .ok none :=
    Loader.findFile_single ⟨h.canonical, hself⟩ List.prefix_rfl hdirectory
  simp only [Loader.load, hfind]

theorem isCanonical_file (h : Mirrors host tree directory base sources)
    (hp : IsPlain host base identifier) (hne : identifier ≠ "") :
    tree.IsCanonical (base ++ [identifier]) :=
  h.isCanonical.append (hp.isUsable hne).1 (h.not_link identifier)

/-- At the place of a name there is a file exactly if there is such a source. -/
theorem isFile_eq (h : Mirrors host tree directory base sources)
    (hp : IsPlain host base identifier) (hne : identifier ≠ "") :
    tree.isFile host (base ++ [identifier]) =
      .ok (Fields.find? identifier sources).isSome := by
  have hfits : FileTree.Fits (base ++ [identifier]) :=
    ⟨hp.fits, List.forall_mem_append.mpr ⟨(h.fits_base hp).2, by simpa using hp.short⟩⟩
  rcases FileTree.isFile_of_isCanonical host (h.isCanonical_file hp hne) with
    ⟨hf, content, hc⟩ | ⟨hf, hnone⟩ | ⟨-, -, ⟨-, hf⟩ | ⟨access, -, hasked⟩⟩
  · rw [hf]
    cases hfind : Fields.find? identifier sources with
    | none => cases (h.entry_eq_none hfind).symm.trans hc.entry
    | some source => rfl
  · rw [hf]
    cases hfind : Fields.find? identifier sources with
    | none => rfl
    | some source =>
      obtain ⟨bytes, -, hentry⟩ := h.exists_encode_eq hfind
      exact absurd (h.holds hentry) (hnone bytes)
  · exact absurd hfits hf
  · cases (h.asked.2 identifier).symm.trans hasked

theorem findFile_eq (h : Mirrors host tree directory base sources)
    (hp : IsPlain host base identifier) (hne : identifier ≠ "") :
    Loader.findFile host tree (Path.ofText (identifier ++ "")) [directory] =
      .ok (if (Fields.find? identifier sources).isSome then some (base ++ [identifier])
        else none) := by
  obtain ⟨hspelled, hnul⟩ := FileTree.named_of_canonical h.canonical
  have hentry := (hp.isUsable hne).1
  have hcandidate : tree.canonical host base (Path.ofText (identifier ++ "")) =
      .ok (base ++ [identifier]) := by
    have hresolve : tree.resolveFrom host host.linkLevels base [] [identifier] =
        .ok ⟨base ++ [identifier], true, []⟩ := by
      rw [FileTree.resolveFrom_plain hentry hp.spelled hp.nul (h.not_link identifier),
        FileTree.resolveFrom]
    rw [String.append_empty, Path.ofText_name hentry.1 hp.slash]
    refine FileTree.canonical_eq_ok_of_resolveFrom hresolve (h.isCanonical_file hp hne) ?_ ?_
    · exact named_append.mpr ⟨hspelled, by simp [hp.spelled]⟩
    · exact named_append.mpr ⟨hnul, by simp [hp.nul]⟩
  exact Loader.findFile_single ⟨h.canonical, hcandidate⟩ (List.prefix_append _ _)
    (h.isFile_eq hp hne)

/-- For each single name the two loaders give the same bytes, or the same failure. -/
theorem load_eq (h : Mirrors host tree directory base sources) (hr : host.CanRead maxSize)
    (hp : IsPlain host base identifier) :
    (Loader.files host tree [directory] "" maxSize).load identifier =
      (Loader.memory sources maxSize).load identifier := by
  by_cases hne : identifier = ""
  · subst hne
    have hnone : Fields.find? "" sources = none :=
      Fields.find?_eq_none_iff.mpr fun hm => (h.plain "" hm).1 rfl
    rw [h.load_empty hp, Loader.load, hnone]
  have hlookup := h.findFile_eq hp hne
  have hfile := h.isFile_eq hp hne
  cases hfind : Fields.find? identifier sources with
  | none =>
    rw [hfind] at hlookup
    simp only [Loader.load, hlookup, hfind, Option.isSome_none, Bool.false_eq_true, if_false]
  | some source =>
    rw [hfind] at hlookup hfile
    obtain ⟨bytes, hencode, hentry⟩ := h.exists_encode_eq hfind
    have hnul : Named (hasNul · = false) (base ++ [identifier]) :=
      named_append.mpr ⟨(FileTree.named_of_canonical h.canonical).2, by simp [hp.nul]⟩
    have hread : tree.read ⟨.slash, base ++ [identifier]⟩ = .ok bytes :=
      FileTree.read_of_holds (h.isCanonical_file hp hne) hnul hfile (h.holds hentry)
    simp only [Loader.load, Loader.openFile, hlookup, hread, hfind, hencode, h.opened,
      Option.isSome_some, if_true, Loader.takeBytes_of_canRead hr, Loader.checkSize_take]

/-- After a file was written the directory mirrors the sources in which it was set. -/
theorem write (h : Mirrors host tree directory base sources) (hne : name ≠ "")
    (hp : IsPlain host base name) {p : Path} (hw : tree.Spells p base name)
    (hs : source.encode = .ok bytes) :
    Mirrors host (tree.write p bytes) directory base (Fields.put name source sources) ∧
      (tree.write p bytes).workingDirectory = tree.workingDirectory := by
  have hopen : tree.openForWriting p = .ok (tree, base ++ [name]) := by
    refine FileTree.openForWriting_of_spells h.there h.usable
      (named_append.mpr
        ⟨(FileTree.named_of_canonical h.canonical).2, by simp [hp.nul]⟩) (hp.isUsable hne) ?_ hw
    intro entry hentry
    cases hfind : Fields.find? name sources with
    | none => cases (h.entry_eq_none hfind).symm.trans hentry
    | some source =>
      obtain ⟨content, -, hcontent⟩ := h.exists_encode_eq hfind
      exact ⟨content, Option.some.inj (hentry.symm.trans hcontent)⟩
  have hwrite : tree.write p bytes = tree.put (base ++ [name]) (.file bytes) := by
    rw [FileTree.write, hopen]
  have hlinks : tree.SameLinks (tree.put (base ++ [name]) (.file bytes)) :=
    FileTree.sameLinks_put (h.not_link name) (by simp) bytes
  have hplace : base ++ [name] ≠ [] := by simp
  have hthere : (tree.put (base ++ [name]) (.file bytes)).IsDirectory base := fun above ha => by
    have hother : above ≠ base ++ [name] := by
      rintro rfl
      simpa using ha.length_le
    rw [FileTree.lookup_put tree _ above hplace, if_neg hother]
    exact h.there above ha
  rw [hwrite]
  refine ⟨?_, rfl⟩
  exact { h with
    canonical := hlinks.canonical hthere h.usable h.canonical
    there := hthere
    files := fun other => by
      rw [FileTree.lookup_put tree _ _ hplace, Fields.find?_put]
      by_cases hother : name = other
      · subst hother
        rw [if_pos rfl, if_pos rfl]
        exact .some (by rw [hs]; rfl)
      · rw [if_neg hother, if_neg (by simpa using Ne.symm hother)]
        exact h.files other
    plain := fun other hm => by
      rw [Fields.names_put] at hm
      split at hm
      · exact h.plain other hm
      · rcases List.mem_append.mp hm with hm | hm
        · exact h.plain other hm
        · rw [List.mem_singleton.mp hm]
          exact ⟨hne, hp⟩ }

end Mirrors

/-! ### Computations -/

/-- A computation only adds to what is asked of the loader, and another one does the same as
long as all that it asks for is `known`. -/
def Imitates (known : String → Prop) {α : Type} (r r' : Run α) : Prop :=
  ∀ s, s.requests.toList <+: (r s).2.requests.toList ∧
    ((∀ identifier ∈ (r s).2.requests.toList, known identifier) → r s = r' s)

namespace Imitates

variable {known : String → Prop} {setup setup' : Setup}

theorem of_requests {α : Type} {r : Run α} (h : ∀ s, (r s).2.requests = s.requests) :
    Imitates known r r :=
  fun s => ⟨by rw [h], fun _ => rfl⟩

theorem congruence (known : String → Prop) :
    Run.Congruence (fun _ => True) fun _ r r' => Imitates known r r' where
  pure _ := of_requests fun _ => rfl
  bind {α β r r' f f'} hr hf s := by
    obtain ⟨hgrown, hsame⟩ := hr s
    rw [Run.bind_apply, Run.bind_apply]
    generalize hrun : r s = out at hgrown hsame ⊢
    obtain ⟨failure | a, s'⟩ := out
    · exact ⟨hgrown, fun hknown => by rw [← hsame hknown]⟩
    · obtain ⟨hgrown', hsame'⟩ := hf a s'
      refine ⟨hgrown.trans hgrown', fun hknown => ?_⟩
      rw [← hsame fun identifier hm => hknown identifier (hgrown'.subset hm)]
      exact hsame' hknown
  reject _ := of_requests fun _ => rfl
  throw _ := of_requests fun _ => rfl
  log _ := of_requests fun _ => rfl
  write text := of_requests fun s => by
    rw [Run.write_apply]
    split
    · rfl
    · split <;> rfl
  calling _ _ := of_requests fun s => by rw [Run.calling_apply]
  reporting {α r r'} identifier hr s := by
    obtain ⟨hgrown, hsame⟩ := hr s
    obtain ⟨events, hreporting⟩ := Run.exists_reporting_apply s identifier r
    refine ⟨by rw [hreporting]; exact hgrown, fun hknown => Run.reporting_congr (hsame ?_)⟩
    rw [hreporting] at hknown
    exact hknown

theorem fetch (h : ∀ identifier, known identifier →
      setup.compiled identifier = setup'.compiled identifier) (identifier : String) :
    Imitates known (setup.fetch identifier) (setup'.fetch identifier) := by
  intro s
  cases hfind : s.cache.find? identifier with
  | some t =>
    rw [Setup.fetch_of_find?_eq_some hfind, Setup.fetch_of_find?_eq_some hfind]
    exact ⟨List.prefix_rfl, fun _ => rfl⟩
  | none =>
    have hasked : (setup.fetch identifier s).2.requests.toList =
        s.requests.toList ++ [identifier] := by
      cases hcompiled : setup.compiled identifier with
      | ok t =>
        rw [Setup.fetch_of_compiled_eq_ok hfind hcompiled]
        exact Array.toList_push
      | error failure =>
        rw [Setup.fetch_of_compiled_eq_error hfind hcompiled]
        exact Array.toList_push
    rw [hasked]
    refine ⟨List.prefix_append _ _, fun hknown => ?_⟩
    rw [Setup.fetch_congr (h identifier (hknown identifier (by simp)))]

end Imitates

/-! ### Steps -/

namespace Engine

/-- A step of an engine over sources in memory, and the same step over files: instead of
setting a source, the file of its name is written. -/
inductive Counterpart (host : Host) (tree : FileTree) (base : Place) : Step → Step → Prop
  | compile (identifiers : List String) :
      Counterpart host tree base (.compile identifiers) (.compile identifiers)
  | render (identifier : String) (context : Datum) (sink : Sink) :
      Counterpart host tree base (.render identifier context sink)
        (.render identifier context sink)
  | fetch (identifier : String) :
      Counterpart host tree base (.fetch identifier) (.fetch identifier)
  | get (identifier : String) : Counterpart host tree base (.get identifier) (.get identifier)
  | rewrite {name : String} {p : Path} {source : Source} {bytes : List UInt8} (hne : name ≠ "")
      (hp : IsPlain host base name) (hw : tree.Spells p base name)
      (hs : source.encode = .ok bytes) :
      Counterpart host tree base (.setSource name source) (.writeFile p bytes)

variable {encoding : String} {maxDepth : Nat} {cache : Cache} {s s' : Step}
  {steps steps' : List Step}

def inMemory (sources : List (String × Source)) (maxSize : Nat) (encoding : String)
    (maxDepth : Nat) (cache : Cache) : Engine :=
  ⟨⟨.memory sources maxSize, encoding, maxDepth⟩, cache⟩

def overFiles (host : Host) (tree : FileTree) (directory : Path) (maxSize : Nat)
    (encoding : String) (maxDepth : Nat) (cache : Cache) : Engine :=
  ⟨⟨.files host tree [directory] "" maxSize, encoding, maxDepth⟩, cache⟩

/-- Counterparts end alike and leave the same behind, while what they ask for is plain. -/
theorem outcome_eq (h : Mirrors host tree directory base sources) (hr : host.CanRead maxSize)
    (hs : Counterpart host tree base s s')
    (hplain : ∀ identifier ∈ ((inMemory sources maxSize encoding maxDepth cache).outcome
      s).session.requests.toList, IsPlain host base identifier) :
    (overFiles host tree directory maxSize encoding maxDepth cache).outcome s' =
      (inMemory sources maxSize encoding maxDepth cache).outcome s := by
  have hcompiled : ∀ identifier, IsPlain host base identifier →
      (inMemory sources maxSize encoding maxDepth cache).setup.compiled identifier =
        (overFiles host tree directory maxSize encoding maxDepth cache).setup.compiled identifier :=
    fun identifier hp => compiled_congr (h.load_eq hr hp).symm rfl rfl
  cases hs with
  | compile identifiers =>
    have hrun := ((Imitates.congruence _).compileAll (Imitates.fetch hcompiled) identifiers _).2
      hplain
    exact congrArg (fun out => Outcome.mk (out.1.map fun _ => none) out.2) hrun.symm
  | render identifier context sink =>
    have hrun := ((Imitates.congruence _).render (Imitates.fetch hcompiled) rfl identifier
      (fun _ _ => trivial) _).2 hplain
    exact congrArg (fun out => Outcome.mk (out.1.map fun _ => none) out.2) hrun.symm
  | fetch identifier =>
    have hrun := (Imitates.fetch hcompiled identifier _).2 hplain
    exact congrArg (fun out => Outcome.mk (out.1.map some) out.2) hrun.symm
  | get identifier => rfl
  | rewrite => rfl

theorem Counterpart.congr {tree' : FileTree} (hs : Counterpart host tree base s s')
    (h : tree'.workingDirectory = tree.workingDirectory) : Counterpart host tree' base s s' := by
  cases hs with
  | compile identifiers => exact .compile identifiers
  | render identifier context sink => exact .render identifier context sink
  | fetch identifier => exact .fetch identifier
  | get identifier => exact .get identifier
  | rewrite hne hp hw hs =>
    exact .rewrite hne hp ⟨by simpa [FileTree.start, h] using hw.names, hw.fits⟩ hs

/-- After counterparts one engine is still over the files that the other one has in memory. -/
theorem exists_step_eq (h : Mirrors host tree directory base sources)
    (hr : host.CanRead maxSize) (hs : Counterpart host tree base s s')
    (hplain : ∀ identifier ∈ ((inMemory sources maxSize encoding maxDepth cache).outcome
      s).session.requests.toList, IsPlain host base identifier) :
    ∃ tree' sources' cache', Mirrors host tree' directory base sources' ∧
      tree'.workingDirectory = tree.workingDirectory ∧
      ((inMemory sources maxSize encoding maxDepth cache).step s).2 =
        inMemory sources' maxSize encoding maxDepth cache' ∧
      ((overFiles host tree directory maxSize encoding maxDepth cache).step s').2 =
        overFiles host tree' directory maxSize encoding maxDepth cache' := by
  have hcache := congrArg (fun out => out.session.cache) (outcome_eq h hr hs hplain)
  cases hs with
  | compile | render | fetch | get =>
    refine ⟨tree, sources, _, h, rfl, rfl, ?_⟩
    rw [← hcache]
    rfl
  | rewrite hne hp hw hs =>
    obtain ⟨hmirrors, hworking⟩ := h.write hne hp hw hs
    exact ⟨_, _, cache, hmirrors, hworking, rfl, rfl⟩

/-- Engines over the files of a directory and over the same sources in memory end all steps
alike and leave the same behind, the cache included, with files rewritten for sources set, as
long as all names that the loader in memory is asked for are plain and sources within the limit
can be read. -/
theorem steps_mirrored (h : Mirrors host tree directory base sources)
    (hr : host.CanRead maxSize) (hs : List.Forall₂ (Counterpart host tree base) steps steps')
    (hplain : ∀ out ∈ ((inMemory sources maxSize encoding maxDepth cache).steps steps).1,
      ∀ identifier ∈ out.session.requests.toList, IsPlain host base identifier) :
    ((overFiles host tree directory maxSize encoding maxDepth cache).steps steps').1 =
        ((inMemory sources maxSize encoding maxDepth cache).steps steps).1 ∧
      ((overFiles host tree directory maxSize encoding maxDepth cache).steps steps').2.cache =
        ((inMemory sources maxSize encoding maxDepth cache).steps steps).2.cache := by
  induction steps generalizing steps' tree sources cache with
  | nil =>
    cases hs
    exact ⟨rfl, rfl⟩
  | cons s rest ih =>
    cases hs with
    | @cons _ s' _ rest' hs hrest =>
      simp only [Engine.steps] at hplain ⊢
      obtain ⟨hfirst, hothers⟩ := List.forall_mem_cons.mp hplain
      have hout := outcome_eq h hr hs hfirst
      obtain ⟨tree', sources', cache', hmirrors, hworking, hnext, hnext'⟩ :=
        exists_step_eq h hr hs hfirst
      rw [hnext] at hothers
      have hrest' : List.Forall₂ (Counterpart host tree' base) rest rest' :=
        hrest.imp fun _ _ hs => hs.congr hworking
      obtain ⟨houts, hcache⟩ := ih hmirrors hrest' hothers
      rw [hnext, hnext']
      exact ⟨List.cons_eq_cons.mpr ⟨hout, houts⟩, hcache⟩

def twoFiles : FileTree where
  entries := [(["t"], .directory), (["t", "a"], .file [123, 123, 62, 98, 125, 125]),
    (["t", "b"], .file [120])]
  workingDirectory := []

def twoSources : List (String × Source) :=
  [("a", .bytes [123, 123, 62, 98, 125, 125]), ("b", .ofText "x")]

theorem isPlain_twoFiles :
    ∀ name ∈ ["a", "b", "c"], name ≠ "" ∧ IsPlain .usual ["t"] name := by
  intro name hm
  simp only [List.mem_cons, List.not_mem_nil, or_false] at hm
  rcases hm with rfl | rfl | rfl <;>
    exact ⟨by decide, by decide, by decide, by decide, by cbv, rfl, by decide, by decide⟩

theorem mirrors_twoFiles : Mirrors .usual twoFiles (Path.ofText "t") ["t"] twoSources where
  canonical := by cbv
  there := fun above ha => by
    rcases List.prefix_concat_iff.mp (show above <+: [] ++ ["t"] from ha) with rfl | ha
    · rfl
    · rw [List.prefix_nil.mp ha]
      rfl
  usable := by
    rintro name hm
    rw [List.mem_singleton.mp hm]
    exact ⟨by decide, by decide⟩
  files := fun name => by
    by_cases ha : "a" = name
    · subst ha
      exact .some rfl
    by_cases hb : "b" = name
    · subst hb
      exact .some (by cbv)
    · simp only [twoSources, twoFiles, FileTree.entry?, Fields.find?_cons, ha, hb]
      simp [ha, hb]
  plain := fun name hm => isPlain_twoFiles name (by
    simp only [twoSources, Fields.names, List.map_cons, List.map_nil] at hm
    exact List.mem_of_mem_take (i := 2) hm)
  asked := ⟨rfl, fun _ => rfl⟩
  opened := fun _ => rfl

theorem steps_mirrored_twoFiles :
    Mirrors .usual twoFiles (Path.ofText "t") ["t"] twoSources ∧ Host.usual.CanRead 9 ∧
      ((overFiles .usual twoFiles (Path.ofText "t") 9 "u8" 3 .empty).steps
          [.render "a" (.ofFields []) .unlimited, .writeFile (Path.ofText "t/c") [121],
            .fetch "c"]).1 =
        ((inMemory twoSources 9 "u8" 3 .empty).steps
          [.render "a" (.ofFields []) .unlimited, .setSource "c" (.bytes [121]),
            .fetch "c"]).1 := by
  have hpath : Path.ofText "t/c" = ⟨.relative, ["t", "c"]⟩ := by decide
  have hsteps : List.Forall₂ (Counterpart .usual twoFiles ["t"])
      [.render "a" (.ofFields []) .unlimited, .setSource "c" (.bytes [121]), .fetch "c"]
      [.render "a" (.ofFields []) .unlimited, .writeFile (Path.ofText "t/c") [121],
        .fetch "c"] := by
    have hspells : twoFiles.Spells (Path.ofText "t/c") ["t"] "c" := by
      rw [hpath]
      exact ⟨⟨["t"], rfl, rfl⟩, by decide⟩
    obtain ⟨hne, hplain⟩ := isPlain_twoFiles "c" (by decide)
    exact .cons (.render _ _ _) (.cons (.rewrite hne hplain hspells rfl) (.cons (.fetch _) .nil))
  have hr : Host.usual.CanRead 9 := ⟨by decide, by decide⟩
  refine ⟨mirrors_twoFiles, hr, (steps_mirrored mirrors_twoFiles hr hsteps ?_).1⟩
  have hrequests : ((inMemory twoSources 9 "u8" 3 .empty).steps
      [.render "a" (.ofFields []) .unlimited, .setSource "c" (.bytes [121]), .fetch "c"]).1.map
        (fun out => out.session.requests.toList) = [["a", "b"], [], ["c"]] := by
    cbv
  have hnames : ∀ asked ∈ [["a", "b"], [], ["c"]], ∀ name ∈ asked, name ∈ ["a", "b", "c"] := by
    decide
  intro out hout identifier hm
  have hasked := List.mem_map_of_mem (f := fun out => out.session.requests.toList) hout
  rw [hrequests] at hasked
  exact (isPlain_twoFiles identifier (hnames _ hasked identifier hm)).2

/-- Under a limit beyond what a byte string can hold a file of one byte is not read, while the
same source in memory is compiled. -/
theorem steps_largestLimit :
    Mirrors .usual twoFiles (Path.ofText "t") ["t"] twoSources ∧ IsPlain .usual ["t"] "b" ∧
      ((overFiles .usual twoFiles (Path.ofText "t") (2 ^ 63 - 1) "u8" 3 .empty).steps
        [.fetch "b"]).1.map Outcome.result = [.error (.bytes .tooMany)] ∧
      ((inMemory twoSources (2 ^ 63 - 1) "u8" 3 .empty).steps [.fetch "b"]).1.map
        Outcome.result = [.ok (some ⟨"b", "x", [.text "x"]⟩)] :=
  ⟨mirrors_twoFiles, (isPlain_twoFiles "b" (by decide)).2, by cbv, by cbv⟩

end Engine

end Mustache
