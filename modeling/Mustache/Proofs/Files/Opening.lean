import Mustache.Files.Canonical
import Mustache.Proofs.Files.Resolution

/-! Files at canonical places. No link is on the way to one, so opening it goes through
directories alone and ends at the place itself: what is asked about the file, and what is
read from it, is right. Where a path leads is such a place, and it is its own. -/

namespace Mustache.Files.FileTree

/-- Names lead from a place through directories alone to a regular file. -/
inductive Holds (tree : FileTree) (content : List UInt8) : Place → List String → Prop
  | file {place name} (h : tree.entry? (place ++ [name]) = some (.file content)) :
      Holds tree content place [name]
  | inside {place name rest} (hd : tree.entry? (place ++ [name]) = some .directory)
      (h : Holds tree content (place ++ [name]) rest) : Holds tree content place (name :: rest)

/-- What it comes to that names are opened in a directory, where no link is on their way. -/
inductive Opens (tree : FileTree) (place : Place) (names : List String) :
    Except PathFault Place → Prop
  | directory (h : tree.entry? (place ++ names) = some .directory) :
      Opens tree place names (.ok (place ++ names))
  | file {content} (h : tree.Holds content place names) :
      Opens tree place names (.ok (place ++ names))
  | nothing {fault} (hf : fault = .missing ∨ fault = .notADirectory)
      (h : ∀ content, ¬ tree.Holds content place names) : Opens tree place names (.error fault)
  | tooLong {name} (hm : name ∈ names) (h : nameIsTooLong name = true) :
      Opens tree place names (.error .nameTooLong)

variable {tree : FileTree} {place start out : Place} {names : List String} {p : Path}
  {content : List UInt8} {links : Nat} {host : Host}

theorem Holds.entry (h : tree.Holds content place names) :
    tree.entry? (place ++ names) = some (.file content) := by
  induction h with
  | file h => exact h
  | inside _ _ ih => rwa [List.append_cons]

theorem holds_cons {name : String} {rest : List String} :
    tree.Holds content place (name :: rest) ↔
      (rest = [] ∧ tree.entry? (place ++ [name]) = some (.file content)) ∨
        (tree.entry? (place ++ [name]) = some .directory ∧
          tree.Holds content (place ++ [name]) rest) := by
  constructor
  · rintro (h | ⟨hd, h⟩)
    · exact .inl ⟨rfl, h⟩
    · exact .inr ⟨hd, h⟩
  · rintro (⟨rfl, h⟩ | ⟨hd, h⟩)
    · exact .file h
    · exact .inside hd h

theorem Opens.inside {name : String} {rest : List String} {result : Except PathFault Place}
    (hd : tree.entry? (place ++ [name]) = some .directory)
    (h : tree.Opens (place ++ [name]) rest result) : tree.Opens place (name :: rest) result := by
  cases h with
  | directory h =>
    rw [← List.append_cons] at h ⊢
    exact .directory h
  | file h =>
    rw [← List.append_cons]
    exact .file (.inside hd h)
  | nothing hf h => exact .nothing hf (by simpa [holds_cons, hd] using h)
  | tooLong hm h => exact .tooLong (List.mem_cons_of_mem _ hm) h

theorem opens_locateFrom (hd : tree.entry? place = some .directory)
    (h : tree.IsCanonical (place ++ names)) :
    tree.Opens place names (tree.locateFrom false links place names) := by
  induction names generalizing place with
  | nil =>
    have hself : tree.Opens place [] (.ok (place ++ [])) := .directory (by rwa [List.append_nil])
    rw [locateFrom]
    rwa [List.append_nil] at hself
  | cons name rest ih =>
    obtain ⟨hn, hp⟩ := h.next
    rw [locateFrom, if_neg (by simp [hn.1]), if_neg hn.2]
    split
    · exact .tooLong List.mem_cons_self ‹_›
    dsimp only
    split
    · rename_i he
      exact .nothing (.inl rfl) (by simp [holds_cons, he])
    · rename_i he
      rw [List.append_cons] at h
      exact (ih he h).inside he
    · rename_i content he
      split
      · rename_i hr
        subst hr
        exact .file (.file he)
      · rename_i hr
        exact .nothing (.inr rfl) (by simp [holds_cons, he, hr])
    · rename_i target he
      exact absurd he (hp target)

/-- A path that can be opened: neither the whole nor a name in it is too long. -/
def Fits (place : Place) : Prop :=
  placeIsTooLong place = false ∧ ∀ name ∈ place, nameIsTooLong name = false

/-- What is asked of a canonical place is answered right, unless the host refuses to answer or
the place does not fit. -/
theorem isFile_of_isCanonical (host : Host) (h : tree.IsCanonical place) :
    (tree.isFile host place = .ok true ∧ ∃ content, tree.Holds content [] place) ∨
    (tree.isFile host place = .ok false ∧ ∀ content, ¬ tree.Holds content [] place) ∨
    ∃ fault, tree.isFile host place = .error fault ∧
      (fault = .nameTooLong ∧ ¬ Fits place ∨
        ∃ access, fault = .access access ∧ host.asked place = some access) := by
  unfold isFile
  split
  · exact .inr (.inr ⟨_, rfl, .inl ⟨rfl, by simp_all [Fits]⟩⟩)
  split
  · rename_i access hasked
    exact .inr (.inr ⟨_, rfl, .inr ⟨access, rfl, hasked⟩⟩)
  have hopens : tree.Opens [] place (tree.locateFrom false maxLinks [] place) :=
    opens_locateFrom rfl h
  generalize tree.locateFrom false maxLinks [] place = result at hopens ⊢
  cases hopens with
  | directory hd =>
    rw [List.nil_append] at hd ⊢
    have hnone : ∀ content, ¬ tree.Holds content [] place := fun content hc =>
      nomatch hd.symm.trans hc.entry
    exact .inr (.inl ⟨by simp only [hd], hnone⟩)
  | file hc => exact .inl ⟨by simp only [hc.entry], _, hc⟩
  | nothing hf hnone =>
    refine .inr (.inl ⟨?_, hnone⟩)
    rcases hf with rfl | rfl <;> rfl
  | tooLong hm hlong =>
    exact .inr (.inr ⟨_, rfl, .inl ⟨rfl, fun hfits => by simp [hfits.2 _ hm] at hlong⟩⟩)

theorem read_of_holds (h : tree.IsCanonical place) (hz : ∀ name ∈ place, hasNul name = false)
    (hf : tree.isFile host place = .ok true) (hc : tree.Holds content [] place) :
    tree.read ⟨.slash, place⟩ = .ok content := by
  have hany : ¬ place.any hasNul = true := by simpa using hz
  unfold isFile at hf
  split at hf
  · simp at hf
  rename_i hshort
  split at hf
  · simp at hf
  have hopens : tree.Opens [] place (tree.locateFrom false maxLinks [] place) :=
    opens_locateFrom rfl h
  have hlocate : tree.locate ⟨.slash, place⟩ = tree.locateFrom false maxLinks [] place := by
    rw [locate, locateAs, if_neg hany, if_neg (by simpa [placeIsTooLong] using hshort)]
    rfl
  rw [read, hlocate]
  generalize tree.locateFrom false maxLinks [] place = result at hopens hf ⊢
  cases hopens with
  | directory _ => simp only [hc.entry]
  | file _ => simp only [hc.entry]
  | nothing _ hnone => exact absurd hc (hnone content)
  | tooLong _ _ => simp at hf

/-- A path leads to a place from another one, or from the root if it is absolute. -/
def LeadsTo (tree : FileTree) (start : Place) (p : Path) (out : Place) : Prop :=
  ∃ n, tree.Leads n (if p.isAbsolute then [] else start) p.parts out

theorem LeadsTo.unique {other : Place} (h : tree.LeadsTo start p out)
    (ho : tree.LeadsTo start p other) : out = other := by
  obtain ⟨_, h⟩ := h
  obtain ⟨_, ho⟩ := ho
  exact (h.unique ho).2

theorem LeadsTo.isCanonical (h : tree.LeadsTo start p out) (hs : tree.IsCanonical start) :
    tree.IsCanonical out := by
  obtain ⟨_, h⟩ := h
  refine h.isCanonical ?_
  split
  · exact isCanonical_root
  · exact hs

theorem locateFrom_ne_linkLoop (h : tree.IsCanonical place) :
    tree.locateFrom false links [] place ≠ .error .linkLoop := by
  have hopens : tree.Opens [] place (tree.locateFrom false links [] place) :=
    opens_locateFrom rfl h
  intro hloop
  rw [hloop] at hopens
  cases hopens with
  | nothing hf _ => simp at hf

theorem canonical_of_resolveFrom {met : Met}
    (hr : tree.resolveFrom host host.linkLevels (if p.isAbsolute then [] else start) [] p.parts =
      .ok ⟨out, true, met⟩) (hc : tree.IsCanonical out) :
    tree.canonical host start p =
      if !out.all host.spells then .error .unspellable
      else if out.any hasNul then .error .nulCharacter else .ok out := by
  unfold canonical
  simp only [hr]
  split
  · rfl
  split
  · rfl
  split
  · rfl
  split
  · rename_i hloop
    exact absurd hloop (locateFrom_ne_linkLoop hc)
  · rfl

theorem canonical_eq_ok_of_resolveFrom {met : Met}
    (hr : tree.resolveFrom host host.linkLevels (if p.isAbsolute then [] else start) [] p.parts =
      .ok ⟨out, true, met⟩) (hc : tree.IsCanonical out)
    (hs : ∀ name ∈ out, host.spells name = true) (hz : ∀ name ∈ out, hasNul name = false) :
    tree.canonical host start p = .ok out := by
  rw [canonical_of_resolveFrom hr hc, if_neg (by simpa using hs), if_neg (by simpa using hz)]

/-- The canonical place of a path is where it leads, unless it cannot be resolved. -/
theorem canonical_of_leadsTo (host : Host) (h : tree.LeadsTo start p out)
    (hs : tree.IsCanonical start) :
    (∃ fault, fault ≠ .linkLoop ∧ tree.canonical host start p = .error fault) ∨
      tree.canonical host start p = .ok out ∧
        (∀ name ∈ out, host.spells name = true) ∧ ∀ name ∈ out, hasNul name = false := by
  obtain ⟨n, hl⟩ := id h
  rcases @resolveFrom_of_leads _ _ _ _ _ host hl host.linkLevels _ _ .start .start with
    ⟨fault, herr⟩ | ⟨met, heq, -⟩
  · have hne : fault ≠ .linkLoop := by
      rintro rfl
      exact resolveFrom_ne_linkLoop herr
    exact .inl ⟨fault, hne, by rw [canonical, herr]⟩
  rw [canonical_of_resolveFrom heq (h.isCanonical hs)]
  split
  · exact .inl ⟨.unspellable, nofun, rfl⟩
  split
  · exact .inl ⟨.nulCharacter, nofun, rfl⟩
  · rename_i hspelled hz
    exact .inr ⟨rfl, by simpa using hspelled, by simpa using hz⟩

theorem resolveFrom_of_isCanonical {levels : Nat} {met : Met}
    (h : tree.IsCanonical (place ++ names)) (hs : ∀ name ∈ names, host.spells name = true)
    (hz : ∀ name ∈ names, hasNul name = false) :
    tree.resolveFrom host levels place met names = .ok ⟨place ++ names, true, met⟩ := by
  induction names generalizing place with
  | nil => rw [resolveFrom, List.append_nil]
  | cons name rest ih =>
    rw [List.forall_mem_cons] at hs hz
    obtain ⟨hn, hp⟩ := h.next
    rw [List.append_cons] at h ⊢
    rw [resolveFrom_plain hn hs.1 hz.1 hp]
    exact ih h hs.2 hz.2

theorem IsCanonical.canonical (h : tree.IsCanonical place)
    (hs : ∀ name ∈ place, host.spells name = true) (hz : ∀ name ∈ place, hasNul name = false)
    (start : Place) : tree.canonical host start ⟨.slash, place⟩ = .ok place :=
  canonical_eq_ok_of_resolveFrom (resolveFrom_of_isCanonical h hs hz) h hs hz

end Mustache.Files.FileTree
