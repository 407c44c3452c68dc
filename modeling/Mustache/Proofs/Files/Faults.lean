import Mathlib.Data.List.Nodup
import Mathlib.Data.List.Perm.Subperm
import Mustache.Proofs.Files.Confinement
import Mustache.Proofs.Files.Written

/-! What keeps a lookup from coming to an answer. A name of a link target, of the working
directory, of a search directory or of what is asked for may hold a NUL character or have no
spelling; a link on the way may lead back to itself, or there may be more links than can be
followed within each other; and what is found may be too long to be asked about, or the system
may refuse to be asked. There are no other ways for a lookup to fail. What was found is loaded
unless it cannot be opened, or so many bytes are asked for that nothing could hold them. The
loader gives bytes within its limit or refuses, by the errors of loaders, unless one of these
things keeps it from doing so. -/

namespace Mustache.Files

/-- All names are as `good` says. -/
def Named (good : String → Prop) (names : List String) : Prop := ∀ name ∈ names, good name

variable {good : String → Prop} {names rest : List String} {name : String}

@[simp] theorem named_nil : Named good [] := by simp [Named]

@[simp] theorem named_cons : Named good (name :: rest) ↔ good name ∧ Named good rest := by
  simp [Named]

@[simp] theorem named_append :
    Named good (names ++ rest) ↔ Named good names ∧ Named good rest := by
  simp only [Named, List.mem_append, or_imp, forall_and]

theorem Named.dropLast (h : Named good names) : Named good names.dropLast :=
  fun name hm => h name (List.mem_of_mem_dropLast hm)

theorem Named.applyNames {place : Place} (hp : Named good place) (hn : Named good names) :
    Named good (applyNames place names) := by
  induction names generalizing place with
  | nil => exact hp
  | cons name rest ih =>
    obtain ⟨hname, hrest⟩ := named_cons.mp hn
    have hnext : Named good (if isIdle name then place else if name = ".." then place.dropLast
        else place ++ [name]) := by
      split
      · exact hp
      split
      · exact hp.dropLast
      · simp [hp, hname]
    exact ih hnext hrest

theorem Named.applyRest {place : Place} (hp : Named good place) (hn : Named good names) :
    Named good (applyRest place names) := by
  unfold Files.applyRest
  split
  · exact named_nil.applyNames hn
  · exact hp.applyNames hn

theorem hasNul_eq_false_iff : hasNul name = false ↔ '\x00' ∉ name.toList := by
  simp [hasNul]

namespace FileTree

variable {tree : FileTree} {host : Host} {place start base out link : Place} {p : Path}
  {fault : PathFault} {levels : Nat} {met : Met}

/-! ### Names that cannot be looked up -/

/-- The names in the targets of all links are as `good` says. -/
def LinksNamed (good : String → Prop) (tree : FileTree) : Prop :=
  ∀ link target, tree.entry? link = some (.link target) → Named good (splitSlashes target)

/-- What is noted of links is made of such names. -/
def MetNamed (good : String → Prop) (met : Met) : Prop :=
  ∀ link out, noted met link = some (some out) → Named good out

theorem metNamed_nil : MetNamed good [] := by simp [MetNamed, noted]

theorem MetNamed.follow (h : MetNamed good met) (link : Place) :
    MetNamed good ((link, none) :: met) := by
  intro other out ho
  rw [noted_cons] at ho
  split at ho
  · simp at ho
  · exact h other out ho

theorem MetNamed.followed (h : MetNamed good met) (hp : Named good place) (link : Place) :
    MetNamed good ((link, some place) :: met) := by
  intro other out ho
  rw [noted_cons] at ho
  split at ho
  · cases ho
    exact hp
  · exact h other out ho

theorem named_if {b : Bool} (h : Named good place) : Named good (if b then [] else place) := by
  split
  · exact named_nil
  · exact h

/-- What it comes to that such names are resolved: a place of such names, or a fault for which
one of them is to blame, or too many links. -/
inductive Resolution (good : String → Prop) (host : Host) : Except PathFault Resolved → Prop
  | found {found : Resolved} (hp : Named good found.place) (hm : MetNamed good found.met) :
      Resolution good host (.ok found)
  | nul {name : String} (hg : good name) (h : hasNul name = true) :
      Resolution good host (.error .nulCharacter)
  | unspellable {name : String} (hg : good name) (h : host.spells name = false) :
      Resolution good host (.error .unspellable)
  | tooDeep : Resolution good host (.error .linksTooDeep)

theorem resolution_resolveFrom (hl : tree.LinksNamed good) (hp : Named good place)
    (hm : MetNamed good met) (hn : Named good names) :
    Resolution good host (tree.resolveFrom host levels place met names) := by
  fun_induction resolveFrom tree host levels place met names with
  | case1 => exact .found hp hm
  | case2 _ _ _ _ _ _ ih => exact ih hp hm (named_cons.mp hn).2
  | case3 _ _ _ _ _ ih => exact ih hp.dropLast hm (named_cons.mp hn).2
  | case4 =>
    rename_i hs
    exact .unspellable (named_cons.mp hn).1 (by simpa using hs)
  | case5 =>
    rename_i hz
    exact .nul (named_cons.mp hn).1 hz
  -- A link that has been followed, one that is being followed, and one that is too deep.
  | case6 =>
    rename_i hknown ih
    exact ih (hm _ _ hknown) hm (named_cons.mp hn).2
  | case7 =>
    obtain ⟨hname, hrest⟩ := named_cons.mp hn
    exact .found (.applyRest (named_append.mpr ⟨hp, by simpa using hname⟩) hrest) hm
  | case8 => exact .tooDeep
  -- A link that is followed now: its target fails, leads to a place, or ends at a loop.
  | case9 =>
    rename_i ht _ _ _ hinner ih
    rw [← hinner]
    exact ih (named_if hp) (hm.follow _) (hl _ _ ht)
  | case10 =>
    rename_i ht _ _ _ hinner _ ihtarget ih
    have htarget := ihtarget (named_if hp) (hm.follow _) (hl _ _ ht)
    rw [hinner] at htarget
    cases htarget with
    | found hplace hmet => exact ih hplace (hmet.followed hplace _) (named_cons.mp hn).2
  | case11 =>
    rename_i ht _ _ _ hinner _ ih
    have htarget := ih (named_if hp) (hm.follow _) (hl _ _ ht)
    rw [hinner] at htarget
    cases htarget with
    | found hplace hmet => exact .found (hplace.applyRest (named_cons.mp hn).2) hmet
  | case12 =>
    rename_i ih
    obtain ⟨hname, hrest⟩ := named_cons.mp hn
    exact ih (named_append.mpr ⟨hp, by simpa using hname⟩) hm hrest

/-! ### Too many links -/

def linkCount (tree : FileTree) : Nat :=
  (tree.entries.filter fun entry => entry.2 matches .link _).length

/-- Different links are no more than the tree has. -/
theorem length_le_linkCount {links : List Place} (hd : links.Nodup)
    (hl : ∀ link ∈ links, ∃ target, tree.entry? link = some (.link target)) :
    links.length ≤ tree.linkCount := by
  rw [linkCount, ← List.length_map Prod.fst]
  refine (hd.subperm fun link hm => ?_).length_le
  obtain ⟨target, ht⟩ := hl link hm
  exact List.mem_map.mpr ⟨(link, .link target),
    List.mem_filter.mpr ⟨mem_entries_of_link ht, rfl⟩, rfl⟩

theorem noted_cons_ne_none {entry : Place × Option Place} (h : noted met link ≠ none) :
    noted (entry :: met) link ≠ none := by
  rw [noted_cons]
  split
  · exact nofun
  · exact h

theorem noted_of_resolveFrom {found : Resolved}
    (h : tree.resolveFrom host levels place met names = .ok found)
    (hnoted : noted met link ≠ none) : noted found.met link ≠ none := by
  fun_induction resolveFrom tree host levels place met names generalizing found with
  | case1 | case7 =>
    cases h
    exact hnoted
  | case4 | case5 | case8 | case9 => cases h
  | case2 | case3 | case6 | case12 =>
    rename_i ih
    exact ih h hnoted
  | case10 =>
    rename_i hinner _ ihtarget ih
    exact ih h (noted_cons_ne_none (ihtarget hinner (noted_cons_ne_none hnoted)))
  | case11 =>
    rename_i hinner _ ih
    have hinside := ih hinner (noted_cons_ne_none hnoted)
    cases h
    exact hinside

/-- While some links are open, and `levels` more of them can be followed, there are too many
only if the tree has more than these. -/
theorem lt_linkCount_of_resolveFrom {opened : List Place}
    (h : tree.resolveFrom host levels place met names = .error .linksTooDeep)
    (hd : opened.Nodup)
    (hl : ∀ link ∈ opened, ∃ target, tree.entry? link = some (.link target))
    (hm : ∀ link ∈ opened, noted met link ≠ none) :
    opened.length + levels < tree.linkCount := by
  fun_induction resolveFrom tree host levels place met names generalizing opened with
  | case1 | case4 | case5 | case7 | case11 => cases h
  | case2 | case3 | case6 | case12 =>
    rename_i ih
    exact ih h hd hl hm
  | case8 =>
    rename_i ht hnew
    have hopened := length_le_linkCount
      (List.nodup_cons.mpr ⟨fun hlink => hm _ hlink hnew, hd⟩)
      (List.forall_mem_cons.mpr ⟨⟨_, ht⟩, hl⟩)
    rw [List.length_cons] at hopened
    omega
  | case9 =>
    rename_i ht hnew _ _ hinner ih
    have hdeeper := ih (hinner.trans h) (List.nodup_cons.mpr ⟨fun hlink => hm _ hlink hnew, hd⟩)
      (List.forall_mem_cons.mpr ⟨⟨_, ht⟩, hl⟩)
      (List.forall_mem_cons.mpr ⟨by simp [noted_cons], fun link hlink =>
        noted_cons_ne_none (hm link hlink)⟩)
    rw [List.length_cons] at hdeeper
    omega
  | case10 =>
    rename_i hinner _ _ ih
    exact ih h hd hl fun link hlink =>
      noted_cons_ne_none (noted_of_resolveFrom hinner (noted_cons_ne_none (hm link hlink)))

/-! ### Faults of paths -/

/-- What it comes to that a path of such names is made canonical. -/
inductive Canonizes (good : String → Prop) (host : Host) (tree : FileTree) :
    Except PathFault Place → Prop
  | place {place : Place} (hp : Named good place) (hs : Named (host.spells · = true) place)
      (hz : Named (hasNul · = false) place) : Canonizes good host tree (.ok place)
  | nul {name : String} (hg : good name) (h : hasNul name = true) :
      Canonizes good host tree (.error .nulCharacter)
  | unspellable {name : String} (hg : good name) (h : host.spells name = false) :
      Canonizes good host tree (.error .unspellable)
  | tooDeep (h : host.linkLevels < tree.linkCount) :
      Canonizes good host tree (.error .linksTooDeep)
  | loop : Canonizes good host tree (.error .linkLoop)

theorem canonizes_canonical (host : Host) (hl : tree.LinksNamed good) (hs : Named good start)
    (hp : Named good p.parts) : Canonizes good host tree (tree.canonical host start p) := by
  have hresolution := @resolution_resolveFrom _ _ _ host _ host.linkLevels _ hl
    (@named_if _ _ p.isAbsolute hs) metNamed_nil hp
  unfold canonical
  generalize hresult : tree.resolveFrom host host.linkLevels (if p.isAbsolute then [] else start)
    [] p.parts = result at hresolution
  cases hresolution with
  | nul hg h => exact .nul hg h
  | unspellable hg h => exact .unspellable hg h
  | tooDeep =>
    refine .tooDeep ?_
    simpa using lt_linkCount_of_resolveFrom hresult List.nodup_nil (by simp) (by simp)
  | @found found hplace _ =>
    dsimp only
    split
    · rename_i hunspelled
      obtain ⟨name, hname, hspell⟩ : ∃ name ∈ found.place, host.spells name = false := by
        simpa using hunspelled
      exact .unspellable (hplace name hname) hspell
    split
    · rename_i hnul
      obtain ⟨name, hname, hz⟩ := List.any_eq_true.mp hnul
      exact .nul (hplace name hname) hz
    rename_i hspelled hnul
    have hok : Canonizes good host tree (.ok found.place) :=
      .place hplace (by simpa [Named] using hspelled) (by simpa [Named] using hnul)
    split
    · exact hok
    split
    · exact .loop
    · exact hok

/-- The canonical place of a path can be looked up. -/
theorem named_of_canonical (h : tree.canonical host start p = .ok place) :
    Named (host.spells · = true) place ∧ Named (hasNul · = false) place := by
  have hcanonizes : Canonizes (fun _ => True) host tree (tree.canonical host start p) :=
    canonizes_canonical host (by simp [LinksNamed, Named]) (by simp [Named]) (by simp [Named])
  rw [h] at hcanonizes
  cases hcanonizes with
  | place _ hs hz => exact ⟨hs, hz⟩

/-- What comes of asking about a place: an answer, or a fault for which there is a reason. -/
theorem isFile_error (h : tree.isFile host place = .error fault) :
    fault = .nameTooLong ∨ ∃ access, fault = .access access ∧ host.asked place = some access := by
  unfold isFile at h
  split at h
  · exact .inl (Except.error.inj h).symm
  split at h
  · rename_i access hasked
    exact .inr ⟨access, (Except.error.inj h).symm, hasked⟩
  split at h
  · cases h
  · exact .inl (Except.error.inj h).symm
  · cases h

theorem read_of_isFile (hz : Named (hasNul · = false) place)
    (h : tree.isFile host place = .ok true) :
    ∃ content, tree.read ⟨.slash, place⟩ = .ok content := by
  unfold isFile at h
  split at h
  · cases h
  rename_i hshort
  split at h
  · cases h
  have hlocate : tree.locate ⟨.slash, place⟩ = tree.locateFrom false maxLinks [] place := by
    rw [locate, locateAs, if_neg (by simpa [Named] using hz),
      if_neg (by simpa [placeIsTooLong] using hshort)]
    rfl
  rw [read, hlocate]
  split at h
  · rename_i out _
    cases he : tree.entry? out with
    | none => simp [he] at h
    | some entry =>
      cases entry with
      | file content => exact ⟨content, by simp only [*]⟩
      | directory | link _ => simp [he] at h
  · cases h
  · cases h

/-- Through directories the way leads to a name that is too long, and no further. -/
theorem locateFrom_of_nameIsTooLong {links : Nat} (hc : tree.IsCanonical (place ++ names))
    (hd : ∀ above, above <+: names → tree.entry? (place ++ above) = some .directory)
    (hn : IsEntryName name) (hlong : nameIsTooLong name = true) :
    tree.locateFrom false links place (names ++ [name]) = .error .nameTooLong := by
  induction names generalizing place with
  | nil => rw [List.nil_append, locateFrom, if_neg (by simp [hn.1]), if_neg hn.2, if_pos hlong]
  | cons first rest ih =>
    obtain ⟨hf, -⟩ := hc.next
    rw [List.cons_append, locateFrom, if_neg (by simp [hf.1]), if_neg hf.2]
    split
    · rfl
    have hfirst := hd [first] (by simp)
    simp only [hfirst]
    refine ih (by rwa [List.append_cons] at hc) fun above ha => ?_
    rw [← List.append_cons]
    exact hd (first :: above) (List.cons_prefix_cons.mpr ⟨rfl, ha⟩)

end FileTree

end Mustache.Files

namespace Mustache.Loader

open Files

variable {host : Host} {tree : FileTree} {name directory : Path} {searchPath : List Path}
  {place : Place} {fault : PathFault}

/-- A directory at which a lookup fails: the directory cannot be resolved, or the name below
it, or what stands there cannot be asked about. -/
inductive FailsAt (host : Host) (tree : FileTree) (name directory : Path) (fault : PathFault) :
    Prop
  | directory (h : tree.canonical host tree.workingDirectory directory = .error fault)
  | name {base} (hb : tree.canonical host tree.workingDirectory directory = .ok base)
      (h : tree.canonical host base name = .error fault)
  | file {base place} (hr : Resolves host tree name directory base place) (hi : base <+: place)
      (h : tree.isFile host place = .error fault)

/-- What a lookup comes to at its first directory: a fault, a file that is there, or what it
comes to at the others. -/
theorem findFile_cons_cases (host : Host) (tree : FileTree) (name directory : Path)
    (rest : List Path) :
    (∃ fault, findFile host tree name (directory :: rest) = .error fault ∧
      FailsAt host tree name directory fault) ∨
    (∃ base place, findFile host tree name (directory :: rest) = .ok (some place) ∧
      Resolves host tree name directory base place ∧ tree.isFile host place = .ok true) ∨
    findFile host tree name (directory :: rest) = findFile host tree name rest := by
  rw [findFile]
  rcases hbase : tree.canonical host tree.workingDirectory directory with fault | base
  · exact .inl ⟨fault, rfl, .directory hbase⟩
  rcases hplace : tree.canonical host base name with fault | place
  · exact .inl ⟨fault, by simp only [bind, Except.bind, hplace], .name hbase hplace⟩
  simp only [bind, Except.bind, hplace]
  split
  · rename_i hi
    rcases hfile : tree.isFile host place with fault | (_ | _)
    · exact .inl ⟨fault, rfl, .file ⟨hbase, hplace⟩ (List.isPrefixOf_iff_prefix.mp hi) hfile⟩
    · exact .inr (.inr rfl)
    · exact .inr (.inl ⟨base, place, rfl, ⟨hbase, hplace⟩, hfile⟩)
  · exact .inr (.inr rfl)

theorem failsAt_of_findFile (h : findFile host tree name searchPath = .error fault) :
    ∃ directory ∈ searchPath, FailsAt host tree name directory fault := by
  induction searchPath with
  | nil => cases h
  | cons directory rest ih =>
    rcases findFile_cons_cases host tree name directory rest with
      ⟨_, hf, hfails⟩ | ⟨_, _, hf, -⟩ | hf
    · cases hf.symm.trans h
      exact ⟨directory, List.mem_cons_self, hfails⟩
    · cases hf.symm.trans h
    · obtain ⟨other, ho, hfails⟩ := ih (hf.symm.trans h)
      exact ⟨other, List.mem_cons_of_mem _ ho, hfails⟩

/-- What is found was resolved, and it is a regular file. -/
theorem isFile_of_findFile (h : findFile host tree name searchPath = .ok (some place)) :
    Named (hasNul · = false) place ∧ tree.isFile host place = .ok true := by
  induction searchPath with
  | nil => cases h
  | cons directory rest ih =>
    rcases findFile_cons_cases host tree name directory rest with
      ⟨_, hf, -⟩ | ⟨_, _, hf, hr, hfile⟩ | hf
    · cases hf.symm.trans h
    · cases hf.symm.trans h
      exact ⟨(FileTree.named_of_canonical hr.2).2, hfile⟩
    · exact ih (hf.symm.trans h)

/-- All that a name below a directory is resolved by is made of names as `good` says. -/
structure Spelled (good : String → Prop) (tree : FileTree) (name directory : Path) : Prop where
  links : tree.LinksNamed good
  workingDirectory : Named good tree.workingDirectory
  directory : Named good directory.parts
  name : Named good name.parts

/-- What keeps a lookup of a name below a directory from an answer, and the fault by which
it then ends. -/
inductive Breaks (host : Host) (tree : FileTree) (name directory : Path) : PathFault → Prop
  | nul (h : ¬ Spelled (hasNul · = false) tree name directory) :
      Breaks host tree name directory .nulCharacter
  | unspellable (h : ¬ Spelled (host.spells · = true) tree name directory) :
      Breaks host tree name directory .unspellable
  | tooDeep (h : host.linkLevels < tree.linkCount) : Breaks host tree name directory .linksTooDeep
  | loop (h : ¬ Reaches tree name directory) : Breaks host tree name directory .linkLoop
  | tooLong {base place} (hr : Resolves host tree name directory base place) (hi : base <+: place)
      (h : Reaches tree name directory → ¬ FileTree.Fits place) :
      Breaks host tree name directory .nameTooLong
  | refused {base place access} (hr : Resolves host tree name directory base place)
      (hi : base <+: place) (h : host.asked place = some access) :
      Breaks host tree name directory (.access access)

/-- Where names cannot be resolved, one of them is to blame, or there are too many links, or a
loop. -/
theorem FailsAt.canonizes {good : String → Prop} (h : FailsAt host tree name directory fault)
    (hspelled : Spelled good tree name directory) :
    FileTree.Canonizes good host tree (.error fault) ∨
      ∃ base place, Resolves host tree name directory base place ∧ base <+: place ∧
        tree.isFile host place = .error fault := by
  have hbase := FileTree.canonizes_canonical host hspelled.links hspelled.workingDirectory
    hspelled.directory
  cases h with
  | directory h => exact .inl (h ▸ hbase)
  | name hb h =>
    rw [hb] at hbase
    cases hbase with
    | place hgood _ _ =>
      exact .inl (h ▸ FileTree.canonizes_canonical host hspelled.links hgood hspelled.name)
  | file hr hi h => exact .inr ⟨_, _, hr, hi, h⟩

/-- Where a directory and a name below it lead somewhere, no loop is met. -/
theorem FailsAt.not_reaches (hw : tree.IsCanonical tree.workingDirectory)
    (h : FailsAt host tree name directory .linkLoop) : ¬ Reaches tree name directory := by
  rintro ⟨base, place, hb, hp⟩
  have hbase := FileTree.canonical_of_leadsTo host hb hw
  have hplace := FileTree.canonical_of_leadsTo host hp (hb.isCanonical hw)
  cases h with
  | directory h => simp [h] at hbase
  | name hb' h =>
    obtain ⟨_, -, herr⟩ | ⟨hb'', -⟩ := hbase
    · cases hb'.symm.trans herr
    · cases hb'.symm.trans hb''
      simp [h] at hplace
  | file _ _ h => obtain hlong | ⟨_, haccess, -⟩ := FileTree.isFile_error h <;> contradiction

theorem Resolves.not_fits {base : Place} (hw : tree.IsCanonical tree.workingDirectory)
    (hr : Resolves host tree name directory base place)
    (h : tree.isFile host place = .error .nameTooLong) (hreach : Reaches tree name directory) :
    ¬ FileTree.Fits place := by
  obtain ⟨base', place', hb, hp⟩ := hreach
  have hbc := hb.isCanonical hw
  have hbase := FileTree.canonical_of_leadsTo host hb hw
  simp only [hr.1, reduceCtorEq, and_false, exists_false, false_or, Except.ok.injEq] at hbase
  obtain ⟨rfl, -⟩ := hbase
  have hplace := FileTree.canonical_of_leadsTo host hp hbc
  simp only [hr.2, reduceCtorEq, and_false, exists_false, false_or, Except.ok.injEq] at hplace
  obtain ⟨rfl, -⟩ := hplace
  rcases FileTree.isFile_of_isCanonical host (hp.isCanonical hbc) with
    ⟨hok, -⟩ | ⟨hok, -⟩ | ⟨_, hfault, ⟨-, hlong⟩ | ⟨access, rfl, -⟩⟩
  · cases hok.symm.trans h
  · cases hok.symm.trans h
  · exact hlong
  · cases hfault.symm.trans h

theorem FailsAt.breaks (hw : tree.IsCanonical tree.workingDirectory)
    (h : FailsAt host tree name directory fault) : Breaks host tree name directory fault := by
  -- Nothing is known of the names but that they are names; so much for what the faults are.
  have hany : Spelled (fun _ => True) tree name directory :=
    ⟨by simp [FileTree.LinksNamed, Named], by simp [Named], by simp [Named], by simp [Named]⟩
  obtain hcanonizes | ⟨base, place, hr, hi, hfile⟩ := h.canonizes hany
  · cases hcanonizes with
    | nul =>
      refine .nul fun hspelled => ?_
      obtain hcanonizes | ⟨_, _, _, _, hfile⟩ := h.canonizes hspelled
      · cases hcanonizes with
        | nul hg hz => simp [hz] at hg
      · obtain _ | ⟨_, _, _⟩ := FileTree.isFile_error hfile <;> contradiction
    | unspellable =>
      refine .unspellable fun hspelled => ?_
      obtain hcanonizes | ⟨_, _, _, _, hfile⟩ := h.canonizes hspelled
      · cases hcanonizes with
        | unspellable hg hs => simp [hs] at hg
      · obtain _ | ⟨_, _, _⟩ := FileTree.isFile_error hfile <;> contradiction
    | tooDeep hcount => exact .tooDeep hcount
    | loop => exact .loop (h.not_reaches hw)
  · obtain rfl | ⟨access, rfl, hasked⟩ := FileTree.isFile_error hfile
    · exact .tooLong hr hi (hr.not_fits hw hfile)
    · exact .refused hr hi hasked

/-- A load from files gives bytes within the limit, or is refused because there is no such
file, because it cannot be opened or because it is too large, unless something breaks the
lookup at one of the search directories, or the limit is beyond what can be read; the fault
then escapes the loader. -/
theorem load_files_cases {extension identifier : String} {maxSize : Nat}
    (hw : tree.IsCanonical tree.workingDirectory) :
    let result := load (.files host tree searchPath extension maxSize) identifier
    (∃ bytes, result = .ok bytes ∧ bytes.length ≤ maxSize) ∨
    result = .error (notFound identifier) ∨
    (∃ place access, host.opened place = some access ∧
      result = .error (unopened place (.access access) identifier)) ∨
    result = .error (oversized maxSize identifier) ∨
    (∃ fault, result = .error (.path fault) ∧ ∃ directory ∈ searchPath,
      Breaks host tree (Path.ofText (identifier ++ extension)) directory fault) ∨
    (Host.largestBytes < maxSize + 1 ∧ result = .error (.bytes .tooMany)) ∨
    host.memory < maxSize + 1 ∧ result = .error (.bytes .outOfMemory) := by
  intro result
  rcases hf : findFile host tree (Path.ofText (identifier ++ extension)) searchPath with
    fault | (_ | place)
  · obtain ⟨directory, hd, hfails⟩ := failsAt_of_findFile hf
    have hresult : result = .error (.path fault) := by simp only [result, load, hf]
    exact .inr (.inr (.inr (.inr (.inl ⟨fault, hresult, directory, hd, hfails.breaks hw⟩))))
  · exact .inr (.inl (by simp only [result, load, hf]))
  · obtain ⟨hz, hfile⟩ := isFile_of_findFile hf
    obtain ⟨content, hread⟩ := FileTree.read_of_isFile hz hfile
    have hreads : Reads host place content maxSize identifier result := reads_of_findFile hf hread
    generalize result = result at hreads
    cases hreads with
    | content h => exact .inl ⟨content, rfl, h⟩
    | tooLarge => exact .inr (.inr (.inr (.inl rfl)))
    | unopened h => exact .inr (.inr (.inl ⟨place, _, h, rfl⟩))
    | tooMany h => exact .inr (.inr (.inr (.inr (.inr (.inl ⟨h, rfl⟩)))))
    | outOfMemory h => exact .inr (.inr (.inr (.inr (.inr (.inr ⟨h, rfl⟩)))))

theorem load_files_cases_loop :
    loopTree.IsCanonical loopTree.workingDirectory ∧
      load (.files .usual loopTree [Path.ofText "t"] "" 8) "loop" = .error (.path .linkLoop) ∧
      ¬ Reaches loopTree (Path.ofText ("loop" ++ "")) (Path.ofText "t") := by
  have hw : loopTree.IsCanonical loopTree.workingDirectory := FileTree.isCanonical_root
  have hload : load (.files .usual loopTree [Path.ofText "t"] "" 8) "loop" =
      .error (.path .linkLoop) := by cbv
  refine ⟨hw, hload, ?_⟩
  have hcases := @load_files_cases .usual _ [Path.ofText "t"] "" "loop" 8 hw
  rw [hload] at hcases
  obtain ⟨_, h, -⟩ | h | ⟨_, _, _, h⟩ | h | ⟨fault, h, directory, hd, hb⟩ | ⟨_, h⟩ | ⟨_, h⟩ :=
    hcases
  · cases h
  · simp [notFound] at h
  · simp [Loader.unopened] at h
  · simp [oversized] at h
  · cases h
    obtain rfl := List.mem_singleton.mp hd
    cases hb with
    | loop hloop => exact hloop
  · cases h
  · cases h

/-! ### Names that always escape -/

variable {base : Place} {rest : List Path} {extension identifier written : String} {maxSize : Nat}

theorem load_of_hasNul (hb : tree.canonical host tree.workingDirectory directory = .ok base)
    (hname : Path.ofText (identifier ++ extension) = ⟨.relative, [written]⟩)
    (hn : IsEntryName written) (hs : host.spells written = true) (hz : hasNul written = true) :
    load (.files host tree (directory :: rest) extension maxSize) identifier =
      .error (.path .nulCharacter) := by
  have hplace : tree.canonical host base ⟨.relative, [written]⟩ = .error .nulCharacter := by
    rw [FileTree.canonical, FileTree.resolveFrom_of_hasNul hn hs hz]
  simp only [load, hname, findFile, hb, hplace, bind, Except.bind]

theorem load_of_nameIsTooLong (hb : tree.canonical host tree.workingDirectory directory = .ok base)
    (hc : tree.IsCanonical base)
    (hd : ∀ above, above <+: base → tree.entry? above = some .directory)
    (hname : Path.ofText (identifier ++ extension) = ⟨.relative, [written]⟩)
    (hn : IsEntryName written) (hs : host.spells written = true) (hz : hasNul written = false)
    (hlong : nameIsTooLong written = true) (hasked : host.asked (base ++ [written]) = none)
    (hlink : ∀ target, tree.entry? (base ++ [written]) ≠ some (.link target)) :
    load (.files host tree (directory :: rest) extension maxSize) identifier =
      .error (.path .nameTooLong) := by
  have hcanonical : tree.IsCanonical (base ++ [written]) := hc.append hn hlink
  obtain ⟨hspelled, hnul⟩ := FileTree.named_of_canonical hb
  have hplace : tree.canonical host base ⟨.relative, [written]⟩ = .ok (base ++ [written]) := by
    have hresolve : tree.resolveFrom host host.linkLevels base [] [written] =
        .ok ⟨base ++ [written], true, []⟩ := by
      rw [FileTree.resolveFrom_plain hn hs hz hlink, FileTree.resolveFrom]
    refine (FileTree.canonical_of_resolveFrom hresolve hcanonical).trans ?_
    rw [if_neg (by simpa [hs, Files.Named] using hspelled),
      if_neg (by simpa [hz, Files.Named] using hnul)]
  have hfile : tree.isFile host (base ++ [written]) = .error .nameTooLong := by
    unfold FileTree.isFile
    split
    · rfl
    · rw [hasked, FileTree.locateFrom_of_nameIsTooLong hc hd hn hlong]
  have hinside : base.isPrefixOf (base ++ [written]) = true :=
    List.isPrefixOf_iff_prefix.mpr (List.prefix_append _ _)
  simp only [load, hname, findFile, hb, hplace, hfile, hinside, if_true, bind, Except.bind]

/-- A name of a number of letters. -/
def letters (n : Nat) : String := String.ofList (List.replicate n 'a')

variable {n : Nat}

theorem utf8ByteSize_letters : (letters n).utf8ByteSize = n := by
  induction n with
  | zero => rfl
  | succ n ih =>
    rw [letters, String.utf8ByteSize_ofList] at ih ⊢
    rw [List.replicate_succ, String.utf8Len_cons, ih]
    rfl

theorem eq_of_mem_letters {c : Char} (h : c ∈ (letters n).toList) : c = 'a' := by
  rw [letters, String.toList_ofList] at h
  exact List.eq_of_mem_replicate h

theorem isEntryName_letters (h : 2 < n) : IsEntryName (letters n) := by
  have hne (text : String) (ht : text.utf8ByteSize ≤ 2) : letters n ≠ text := by
    rintro rfl
    rw [utf8ByteSize_letters] at ht
    omega
  simp [IsEntryName, isIdle, hne "" (by decide), hne "." (by decide), hne ".." (by decide)]

theorem loopTree_load_letters (h : maxNameBytes < n) :
    load (.files .usual loopTree [Path.ofText "t"] "" maxSize) (letters n) =
      .error (.path .nameTooLong) := by
  have hentry : IsEntryName (letters n) := isEntryName_letters (by unfold maxNameBytes at h; omega)
  have hlong : nameIsTooLong (letters n) = true := by simpa [nameIsTooLong, utf8ByteSize_letters]
  have hdirectory : loopTree.IsCanonical ["t"] :=
    FileTree.isCanonical_root.append (by decide) (by simp [loopTree, FileTree.entry?])
  have hthere : ∀ above, above <+: ["t"] → loopTree.entry? above = some .directory := by
    intro above ha
    rcases List.prefix_concat_iff.mp (show above <+: [] ++ ["t"] from ha) with rfl | ha
    · rfl
    · rw [List.prefix_nil.mp ha]
      rfl
  have hlink : ∀ target, loopTree.entry? (["t"] ++ [letters n]) ≠ some (.link target) := by
    intro target hl
    have hm := FileTree.mem_entries_of_link hl
    simp only [loopTree, List.cons_append, List.nil_append, List.mem_cons, Prod.mk.injEq,
      reduceCtorEq, and_false, false_or, List.cons.injEq, List.not_mem_nil, or_false] at hm
    rcases hm with ⟨⟨-, hname, -⟩, -⟩ | ⟨⟨-, hname, -⟩, -⟩ <;> rw [hname] at hlong <;>
      exact absurd hlong (by decide)
  have hname : Path.ofText (letters n ++ "") = ⟨.relative, [letters n]⟩ := by
    rw [String.append_empty]
    exact Path.ofText_name hentry.1 fun hs => absurd (eq_of_mem_letters hs) (by decide)
  have hnul : hasNul (letters n) = false :=
    hasNul_eq_false_iff.mpr fun hz => absurd (eq_of_mem_letters hz) (by decide)
  exact load_of_nameIsTooLong (by cbv) hdirectory hthere hname hentry rfl hnul hlong rfl hlink

/-- A NUL character, a loop and a name that is too long escape the loader, although no file is
there, and so does a limit that is beyond what can be read, although one is. -/
theorem load_files_escapes :
    load (.files .usual loopTree [Path.ofText "t"] "" 8) "a\x00b" = .error (.path .nulCharacter) ∧
      load (.files .usual loopTree [Path.ofText "t"] "" 8) "loop" = .error (.path .linkLoop) ∧
      load (.files .usual loopTree [Path.ofText "t"] "" 8) (letters 256) =
        .error (.path .nameTooLong) ∧
      load (.files .usual loopTree [Path.ofText ""] "" (2 ^ 63 - 1)) "secret" =
        .error (.bytes .tooMany) := by
  have hbase : loopTree.canonical .usual loopTree.workingDirectory (Path.ofText "t") =
      .ok ["t"] := by cbv
  have hnul : Path.ofText ("a\x00b" ++ "") = ⟨.relative, ["a\x00b"]⟩ := by decide
  exact ⟨load_of_hasNul hbase hnul (by decide) rfl (by cbv), by cbv,
    loopTree_load_letters (by decide), by cbv⟩

end Mustache.Loader
