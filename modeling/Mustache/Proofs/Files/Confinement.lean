import Mathlib
import Mustache.Loader
import Mustache.Proofs.Files.Opening

/-! Lookups stay inside the search directories. A directory offers a file for a name if
the name leads, below the directory and past all links, to a regular file that is inside
it. While no link leads back to itself, a lookup finds the file that the first such
directory offers, under its canonical place, and the loader gives the bytes of this file
alone. Behind a link that leads back to itself names are not resolved any more, and then
a link may be found that leads outside. -/

namespace Mustache.Loader

open Files

/-- Below a directory a name leads to a regular file inside the directory. -/
def Offers (tree : FileTree) (name directory : Path) (place : Place) (content : List UInt8) :
    Prop :=
  ∃ base, tree.LeadsTo tree.workingDirectory directory base ∧ tree.LeadsTo base name place ∧
    base <+: place ∧ tree.Holds content [] place

/-- A directory, and a name below it, lead somewhere: on the way no link leads back to
itself. -/
def Reaches (tree : FileTree) (name directory : Path) : Prop :=
  ∃ base place, tree.LeadsTo tree.workingDirectory directory base ∧ tree.LeadsTo base name place

/-- A directory and a name below it are resolved to these places. -/
def Resolves (host : Host) (tree : FileTree) (name directory : Path) (base place : Place) :
    Prop :=
  tree.canonical host tree.workingDirectory directory = .ok base ∧
    tree.canonical host base name = .ok place

/-- What a lookup that meets no loop may come to. -/
inductive Looks (host : Host) (tree : FileTree) (name : Path) :
    List Path → Except PathFault (Option Place) → Prop
  | nowhere : Looks host tree name [] (.ok none)
  | found {directory rest base place content} (ho : Offers tree name directory place content)
      (hr : Resolves host tree name directory base place) (hi : base <+: place)
      (hc : tree.IsCanonical place) (hs : ∀ name ∈ place, host.spells name = true)
      (hz : ∀ name ∈ place, hasNul name = false) (hf : tree.isFile host place = .ok true) :
      Looks host tree name (directory :: rest) (.ok (some place))
  | next {directory rest result} (hn : ∀ place content, ¬ Offers tree name directory place content)
      (h : Looks host tree name rest result) : Looks host tree name (directory :: rest) result
  | unresolved {directory rest fault}
      (h : ∀ base place, ¬ Resolves host tree name directory base place) :
      Looks host tree name (directory :: rest) (.error fault)
  | unanswered {directory rest base place fault} (hr : Resolves host tree name directory base place)
      (hi : base <+: place) (hl : FileTree.Fits place → host.asked place ≠ none) :
      Looks host tree name (directory :: rest) (.error fault)

variable {host : Host} {tree : FileTree} {name directory : Path} {searchPath : List Path}
  {place : Place}
  {content : List UInt8}

/-- Where all links can be followed, every name below every directory leads somewhere. -/
theorem reaches_of_follows (hl : ∀ link target, tree.entry? link = some (.link target) →
    ∃ n out, tree.Follows n link out) : Reaches tree name directory := by
  obtain ⟨n, base, hb⟩ := FileTree.exists_leads hl
    (if directory.isAbsolute then [] else tree.workingDirectory) directory.parts
  obtain ⟨m, place, hp⟩ :=
    FileTree.exists_leads hl (if name.isAbsolute then [] else base) name.parts
  exact ⟨base, place, ⟨n, hb⟩, ⟨m, hp⟩⟩

/-- A name below a directory leads to one place, so no other is offered. -/
theorem offers_iff {base other : Place} (hb : tree.LeadsTo tree.workingDirectory directory base)
    (hp : tree.LeadsTo base name place) :
    Offers tree name directory other content ↔
      other = place ∧ base <+: place ∧ tree.Holds content [] place := by
  constructor
  · rintro ⟨base', hb', hp', hi, hh⟩
    cases hb.unique hb'
    cases hp.unique hp'
    exact ⟨rfl, hi, hh⟩
  · rintro ⟨rfl, hi, hh⟩
    exact ⟨base, hb, hp, hi, hh⟩

theorem looks_findFile (hw : tree.IsCanonical tree.workingDirectory)
    (hl : ∀ directory ∈ searchPath, Reaches tree name directory) :
    Looks host tree name searchPath (findFile host tree name searchPath) := by
  induction searchPath with
  | nil => exact .nowhere
  | cons directory rest ih =>
    have hrest := ih fun other ho => hl other (List.mem_cons_of_mem _ ho)
    obtain ⟨base, place, hb, hp⟩ := hl directory List.mem_cons_self
    have hbc := hb.isCanonical hw
    have hpc := hp.isCanonical hbc
    rw [findFile]
    rcases FileTree.canonical_of_leadsTo host hb hw with ⟨fault, -, herr⟩ | ⟨hbase, -⟩
    · rw [herr]
      exact .unresolved fun _ _ hr => nomatch herr.symm.trans hr.1
    rcases FileTree.canonical_of_leadsTo host hp hbc with
      ⟨fault, -, herr⟩ | ⟨hplace, hs, hz⟩
    · simp only [hbase, herr, bind, Except.bind]
      refine .unresolved fun _ _ hr => ?_
      cases hbase.symm.trans hr.1
      exact nomatch herr.symm.trans hr.2
    have hr : Resolves host tree name directory base place := ⟨hbase, hplace⟩
    simp only [hbase, hplace, bind, Except.bind]
    split
    · rename_i hi
      have hi : base <+: place := List.isPrefixOf_iff_prefix.mp hi
      rcases FileTree.isFile_of_isCanonical host hpc with
        ⟨hf, content, hh⟩ | ⟨hf, hh⟩ | ⟨fault, hf, hwhy⟩
      · rw [hf]
        exact .found ((offers_iff hb hp).2 ⟨rfl, hi, hh⟩) hr hi hpc hs hz hf
      · rw [hf]
        exact .next (fun _ content ho => hh content ((offers_iff hb hp).1 ho).2.2) hrest
      · rw [hf]
        refine .unanswered hr hi fun hfits => ?_
        obtain ⟨-, hlong⟩ | ⟨access, -, hasked⟩ := hwhy
        · exact absurd hfits hlong
        · simp [hasked]
    · rename_i hi
      refine .next (fun _ _ ho => hi ?_) hrest
      exact List.isPrefixOf_iff_prefix.mpr ((offers_iff hb hp).1 ho).2.1

/-- The file that a lookup has to find: the one that the first directory with a file for
the name offers, under a place that no link is on the way to. -/
structure Finds (host : Host) (tree : FileTree) (name : Path) (searchPath : List Path)
    (place : Place)
    (content : List UInt8) : Prop where
  first : ∃ earlier directory later base, searchPath = earlier ++ directory :: later ∧
    Offers tree name directory place content ∧ Resolves host tree name directory base place ∧
    base <+: place ∧ ∀ other ∈ earlier, ∀ place content, ¬ Offers tree name other place content
  canonical : tree.IsCanonical place
  stable : ∀ start, tree.canonical host start ⟨.slash, place⟩ = .ok place
  regular : tree.Holds content [] place

theorem Finds.next (hn : ∀ place content, ¬ Offers tree name directory place content)
    (h : Finds host tree name searchPath place content) :
    Finds host tree name (directory :: searchPath) place content := by
  obtain ⟨earlier, other, later, base, rfl, ho, hr, hi, hfirst⟩ := h.first
  exact { h with first := ⟨directory :: earlier, other, later, base, rfl, ho, hr, hi, by
    simpa using ⟨hn, hfirst⟩⟩ }

/-- What a lookup finds it finds rightly, and it can be read. -/
theorem Looks.finds (h : Looks host tree name searchPath (.ok (some place))) :
    ∃ content, Finds host tree name searchPath place content ∧
      tree.read ⟨.slash, place⟩ = .ok content := by
  generalize hresult : Except.ok (some place) = result at h
  induction h with
  | nowhere => cases hresult
  | @found directory rest base _ content ho hr hi hc hs hz hf =>
    cases hresult
    have hh : tree.Holds content [] place := by
      obtain ⟨_, _, _, _, hh⟩ := ho
      exact hh
    have hfinds : Finds host tree name (directory :: rest) place content :=
      ⟨⟨[], directory, rest, base, rfl, ho, hr, hi, by simp⟩, hc, hc.canonical hs hz, hh⟩
    exact ⟨content, hfinds, FileTree.read_of_holds hc hz hf hh⟩
  | next hn _ ih =>
    obtain ⟨content, hfinds, hread⟩ := ih hresult
    exact ⟨content, hfinds.next hn, hread⟩
  | unresolved _ => cases hresult
  | unanswered _ _ _ => cases hresult

theorem Looks.offers_nothing (h : Looks host tree name searchPath (.ok none)) :
    ∀ directory ∈ searchPath, ∀ place content, ¬ Offers tree name directory place content := by
  generalize hresult : Except.ok none = result at h
  induction h with
  | nowhere => simp
  | found _ _ _ _ _ _ _ => cases hresult
  | next hn _ ih => exact List.forall_mem_cons.mpr ⟨hn, ih hresult⟩
  | unresolved _ => cases hresult
  | unanswered _ _ _ => cases hresult

/-- All directories and the name below them can be resolved, and what is asked about can be
opened and may be looked at. -/
def Answerable (host : Host) (tree : FileTree) (name : Path) (searchPath : List Path) : Prop :=
  ∀ directory ∈ searchPath, ∃ base place, Resolves host tree name directory base place ∧
    (base <+: place → FileTree.Fits place ∧ host.asked place = none)

theorem Looks.not_answerable {fault : PathFault}
    (h : Looks host tree name searchPath (.error fault)) :
    ¬ Answerable host tree name searchPath := by
  generalize hresult : Except.error fault = result at h
  induction h with
  | nowhere => cases hresult
  | found _ _ _ _ _ _ _ => cases hresult
  | next _ _ ih => exact fun ha => ih hresult (List.forall_mem_cons.mp ha).2
  | unresolved hno =>
    intro ha
    obtain ⟨base, place, hr, -⟩ := ha _ List.mem_cons_self
    exact hno base place hr
  | unanswered hr hi hl =>
    intro ha
    obtain ⟨base, place, hr', hfits⟩ := ha _ List.mem_cons_self
    cases hr.1.symm.trans hr'.1
    cases hr.2.symm.trans hr'.2
    exact hl (hfits hi).1 (hfits hi).2

theorem Finds.not_forall (h : Finds host tree name searchPath place content) :
    ¬ ∀ directory ∈ searchPath, ∀ place content, ¬ Offers tree name directory place content := by
  obtain ⟨earlier, directory, later, _, rfl, ho, -⟩ := h.first
  exact fun hn => hn directory (by simp) place content ho

/-- What it comes to that a file which was found is loaded: its content, if this is not too
large, unless the host refuses to open it or the limit is beyond what can be read. -/
inductive Reads (host : Host) (place : Place) (content : List UInt8) (maxSize : Nat)
    (identifier : String) : Except Failure (List UInt8) → Prop
  | content (h : content.length ≤ maxSize) :
      Reads host place content maxSize identifier (.ok content)
  | tooLarge (h : maxSize < content.length) :
      Reads host place content maxSize identifier (.error (oversized maxSize identifier))
  | unopened {access} (h : host.opened place = some access) :
      Reads host place content maxSize identifier
        (.error (unopened place (.access access) identifier))
  | tooMany (h : Host.largestBytes < maxSize + 1) :
      Reads host place content maxSize identifier (.error (.bytes .tooMany))
  | outOfMemory (h : host.memory < maxSize + 1) :
      Reads host place content maxSize identifier (.error (.bytes .outOfMemory))

theorem reads_of_findFile {extension identifier : String} {maxSize : Nat}
    (hf : findFile host tree (Path.ofText (identifier ++ extension)) searchPath = .ok (some place))
    (hread : tree.read ⟨.slash, place⟩ = .ok content) :
    Reads host place content maxSize identifier
      (load (.files host tree searchPath extension maxSize) identifier) := by
  simp only [load, hf, openFile]
  cases hopened : host.opened place with
  | some access => exact .unopened hopened
  | none =>
    simp only [hread, takeBytes]
    by_cases hmany : Host.largestBytes < maxSize + 1
    · simp only [hmany, if_true]
      exact .tooMany hmany
    by_cases hmemory : host.memory < maxSize + 1
    · simp only [hmany, hmemory, if_true, if_false]
      exact .outOfMemory hmemory
    simp only [hmany, hmemory, if_false, checkSize, List.length_take]
    split
    · exact .tooLarge (by omega)
    · rw [List.take_of_length_le (by omega)]
      exact .content (by omega)

/-- Loads are confined to the search directories. While no link leads back to itself, a file
that is found is regular, stands at a canonical place inside the canonical place of a search
directory, and no directory before this one has a file for the name inside it; the bytes
loaded are the content of this file; and if all names can be resolved, a template is
missing exactly if none of the directories has such a file. The working directory is taken
to be canonical, as the system names it. -/
theorem load_confined {extension identifier : String} {maxSize : Nat}
    (hw : tree.IsCanonical tree.workingDirectory)
    (hl : ∀ directory ∈ searchPath,
      Reaches tree (Path.ofText (identifier ++ extension)) directory) :
    let name := Path.ofText (identifier ++ extension)
    (∀ place, findFile host tree name searchPath = .ok (some place) →
      ∃ content, Finds host tree name searchPath place content) ∧
    (∀ bytes, load (.files host tree searchPath extension maxSize) identifier = .ok bytes →
      ∃ place, findFile host tree name searchPath = .ok (some place) ∧
        Finds host tree name searchPath place bytes) ∧
    (Answerable host tree name searchPath →
      (load (.files host tree searchPath extension maxSize) identifier =
          .error (notFound identifier) ↔
        ∀ directory ∈ searchPath, ∀ place content,
          ¬ Offers tree name directory place content)) := by
  intro name
  have hlooks : Looks host tree name searchPath (findFile host tree name searchPath) :=
    looks_findFile hw hl
  rcases hf : findFile host tree name searchPath with fault | (_ | place)
  · rw [hf] at hlooks
    simp only [load, hf, name]
    exact ⟨nofun, nofun, fun ha => absurd ha hlooks.not_answerable⟩
  · rw [hf] at hlooks
    simp only [load, hf, name]
    exact ⟨nofun, nofun, fun _ => iff_of_true trivial hlooks.offers_nothing⟩
  · rw [hf] at hlooks
    obtain ⟨content, hfinds, hread⟩ := hlooks.finds
    have hreads := @reads_of_findFile _ _ _ _ _ _ _ maxSize hf hread
    refine ⟨?_, fun bytes hbytes => ?_, fun _ => iff_of_false (fun h => ?_) hfinds.not_forall⟩
    · rintro _ ⟨⟩
      exact ⟨content, hfinds⟩
    · rw [hbytes] at hreads
      cases hreads
      exact ⟨place, rfl, hfinds⟩
    · rw [h] at hreads
      generalize hmissing : Except.error (notFound identifier) = result at hreads
      cases hreads <;> simp [notFound, oversized, Loader.unopened] at hmissing

/-- A tree with a link of each kind: relative, absolute, and through other links. -/
def linkedTree : FileTree where
  entries := [(["t"], .directory), (["t", "page"], .file [120]), (["t", "old"], .link "/t/page"),
    (["alias"], .link "t"), (["t", "first"], .link "../alias/old")]
  workingDirectory := []

theorem linkedTree_follows {link : Place} {target : String}
    (h : linkedTree.entry? link = some (.link target)) :
    ∃ n out, linkedTree.Follows n link out := by
  have halias : linkedTree.Follows 1 ["alias"] ["t"] := by
    refine ⟨[], "alias", "t", rfl, rfl, ?_⟩
    rw [show isRooted "t" = false by cbv, show splitSlashes "t" = ["t"] by decide]
    exact .plain (by decide) (by simp [linkedTree, FileTree.entry?]) .done
  have hold : linkedTree.Follows 3 ["t", "old"] ["t", "page"] := by
    refine ⟨["t"], "old", "/t/page", rfl, rfl, ?_⟩
    rw [show isRooted "/t/page" = true by cbv,
      show splitSlashes "/t/page" = ["", "t", "page"] by decide]
    have hpage : linkedTree.Leads 1 ["t"] ["page"] ["t", "page"] :=
      .plain (by decide) (by simp [linkedTree, FileTree.entry?]) .done
    exact .idle rfl (.plain (by decide) (by simp [linkedTree, FileTree.entry?]) hpage)
  have hfirst : linkedTree.Follows 7 ["t", "first"] ["t", "page"] := by
    refine ⟨["t"], "first", "../alias/old", rfl, rfl, ?_⟩
    rw [show isRooted "../alias/old" = false by cbv,
      show splitSlashes "../alias/old" = ["..", "alias", "old"] by decide]
    have hrest : linkedTree.Leads 4 ["t"] ["old"] ["t", "page"] := .follow (by decide) hold .done
    have hway : linkedTree.Leads 6 [] ["alias", "old"] ["t", "page"] :=
      .follow (by decide) halias hrest
    exact .up hway
  have hm := FileTree.mem_entries_of_link h
  simp only [linkedTree, List.mem_cons, Prod.mk.injEq, reduceCtorEq, and_false, false_or,
    List.not_mem_nil, or_false] at hm
  rcases hm with ⟨rfl, -⟩ | ⟨rfl, -⟩ | ⟨rfl, -⟩
  · exact ⟨3, _, hold⟩
  · exact ⟨1, _, halias⟩
  · exact ⟨7, _, hfirst⟩

theorem load_confined_linkedTree :
    linkedTree.IsCanonical linkedTree.workingDirectory ∧
      (∀ directory ∈ [Path.ofText "none", Path.ofText "alias"],
        Reaches linkedTree (Path.ofText ("./first" ++ "")) directory) ∧
      ∃ place, findFile .usual linkedTree (Path.ofText ("./first" ++ ""))
          [Path.ofText "none", Path.ofText "alias"] = .ok (some place) ∧
        Finds .usual linkedTree (Path.ofText ("./first" ++ ""))
          [Path.ofText "none", Path.ofText "alias"] place [120] := by
  have hw : linkedTree.IsCanonical linkedTree.workingDirectory := FileTree.isCanonical_root
  have hl : ∀ directory ∈ [Path.ofText "none", Path.ofText "alias"],
      Reaches linkedTree (Path.ofText ("./first" ++ "")) directory :=
    fun _ _ => reaches_of_follows fun _ _ => linkedTree_follows
  exact ⟨hw, hl, (@load_confined .usual _ _ _ _ 8 hw hl).2.1 [120] (by cbv)⟩

/-- A tree with a link that leads back to itself, beside one that leads outside `t`. -/
def loopTree : FileTree where
  entries := [(["secret"], .file [115]), (["t"], .directory), (["t", "loop"], .link "loop"),
    (["t", "x"], .link "../secret")]
  workingDirectory := []

/-- Behind the loop the name `x` is not resolved: the lookup finds the link itself, which is
inside `t`, and the loader gives the bytes of the file outside. -/
theorem load_loopTree :
    findFile .usual loopTree (Path.ofText "loop/../x") [Path.ofText "t"] = .ok (some ["t", "x"]) ∧
      ¬ loopTree.IsCanonical ["t", "x"] ∧
      load (.files .usual loopTree [Path.ofText "t"] "" 8) "loop/../x" = .ok [115] ∧
      ∀ place, ["t"] <+: place → loopTree.entry? place ≠ some (.file [115]) := by
  refine ⟨by cbv, fun h => (h ["t"] "x" List.prefix_rfl).2 "../secret" rfl, by cbv, ?_⟩
  rintro _ ⟨names, rfl⟩ h
  have hm := FileTree.mem_entries_of_eq_some h
  simp [loopTree] at hm

end Mustache.Loader
