import Mustache.Proofs.Files.Faults

/-! Writing files in a directory. Where names lead through directories alone, no directory has
to be made, and a file that is written is put at the place that the names spell. A tree in which
a file was put has the same links as before, so all paths lead where they led. -/

namespace Mustache.Files

/-- A name that an entry can have: it moves, and it is not too long. -/
def IsUsable (name : String) : Prop := IsEntryName name ∧ nameIsTooLong name = false

/-- A text that is put together has no shorter one than its last part, or than the others. -/
theorem utf8ByteSize_intercalate_le (separator : String) (front : List String) (last : String) :
    last.utf8ByteSize ≤ (separator.intercalate (front ++ [last])).utf8ByteSize ∧
      (separator.intercalate front).utf8ByteSize ≤
        (separator.intercalate (front ++ [last])).utf8ByteSize := by
  by_cases hf : front = []
  · simp [hf]
  · rw [String.intercalate_append_of_ne_nil hf (by simp)]
    simp only [String.utf8ByteSize_append, String.intercalate_singleton]
    omega

theorem placeIsTooLong_of_append {place : Place} {name : String}
    (h : placeIsTooLong (place ++ [name]) = false) : placeIsTooLong place = false := by
  have htext (names : List String) :
      (Path.mk .slash names).text = "/" ++ "/".intercalate names := by
    simp [Path.text, Root.text]
  have hle := (utf8ByteSize_intercalate_le "/" place name).2
  simp only [placeIsTooLong, htext, String.utf8ByteSize_append, decide_eq_false_iff_not] at h ⊢
  omega

namespace Path

variable {p : Path}

theorem utf8ByteSize_text_parent_le (h : ∀ name ∈ p.parts, isIdle name = false) :
    p.parent.text.utf8ByteSize ≤ p.text.utf8ByteSize := by
  obtain ⟨root, parts⟩ := p
  rcases List.eq_nil_or_concat' parts with rfl | ⟨front, name, rfl⟩
  · exact le_refl _
  have hname : name ≠ "" := by
    rintro rfl
    simpa [isIdle] using h "" (by simp)
  have hsize : 0 < name.utf8ByteSize := by
    rw [Nat.pos_iff_ne_zero]
    simpa using hname
  have hwhole := utf8ByteSize_intercalate_le "/" front name
  have hparent : (Path.mk root (front ++ [name])).parent.text.utf8ByteSize ≤
      max 1 (root.text.utf8ByteSize + ("/".intercalate front).utf8ByteSize) := by
    rw [parent, List.dropLast_concat, text]
    dsimp only
    split
    · exact le_max_left _ _
    · rw [String.utf8ByteSize_append]
      exact le_max_right _ _
  have hwritten : root.text.utf8ByteSize + ("/".intercalate (front ++ [name])).utf8ByteSize ≤
      (Path.mk root (front ++ [name])).text.utf8ByteSize := by
    rw [text, ← String.utf8ByteSize_append]
    dsimp only
    split
    · rename_i hempty
      rw [String.isEmpty_iff.mp hempty]
      exact Nat.zero_le _
    · exact le_refl _
  omega

end Path

namespace FileTree

variable {tree tree' : FileTree} {place base start out : Place} {names rest : List String}
  {name : String} {p : Path} {entry : Entry} {content : List UInt8} {host : Host} {levels : Nat}
  {met : Met}

/-- Two trees with the same links. -/
def SameLinks (tree tree' : FileTree) : Prop :=
  ∀ link target,
    tree.entry? link = some (.link target) ↔ tree'.entry? link = some (.link target)

/-- A place to which directories alone lead, and which is one. -/
def IsDirectory (tree : FileTree) (place : Place) : Prop :=
  ∀ above, above <+: place → tree.entry? above = some .directory

/-! ### Links and directories -/

theorem SameLinks.resolveFrom_eq (h : SameLinks tree tree') :
    tree'.resolveFrom host levels place met names =
      tree.resolveFrom host levels place met names := by
  fun_induction FileTree.resolveFrom tree host levels place met names with
  | case1 => rw [FileTree.resolveFrom]
  | case2 | case3 | case4 | case5 =>
    rw [FileTree.resolveFrom]
    simp [*]
  | case6 | case7 | case8 | case9 | case10 | case11 =>
    have hl := (h _ _).mp ‹tree.entry? _ = some (.link _)›
    dsimp +zetaDelta only [dite_eq_ite] at *
    rw [FileTree.resolveFrom]
    simp [*]
  | case12 =>
    rename_i hi hu hs hz next hp ih
    have hplain : ∀ target, tree'.entry? next ≠ some (.link target) :=
      fun target ht => hp target ((h _ _).mpr ht)
    rw [resolveFrom_plain ⟨by simpa using hi, hu⟩ (by simpa using hs) (by simpa using hz) hplain,
      ih]

theorem IsDirectory.above {above : Place} (h : tree.IsDirectory place) (ha : above <+: place) :
    tree.IsDirectory above :=
  fun front hf => h front (hf.trans ha)

theorem locateFrom_directories {new : Bool} {links : Nat}
    (hd : tree.IsDirectory (place ++ names)) (hn : ∀ name ∈ names, IsUsable name) :
    tree.locateFrom new links place (names ++ rest) =
      tree.locateFrom new links (place ++ names) rest := by
  induction names generalizing place with
  | nil => rw [List.nil_append, List.append_nil]
  | cons name names ih =>
    obtain ⟨⟨hentry, hlong⟩, hnames⟩ := List.forall_mem_cons.mp hn
    have hname : tree.entry? (place ++ [name]) = some .directory :=
      hd _ (List.prefix_append_right_inj place |>.mpr (by simp))
    rw [List.cons_append, locateFrom, if_neg (by simp [hentry.1]), if_neg hentry.2,
      if_neg (by simp [hlong])]
    simp only [hname]
    rw [List.append_cons place name names] at hd ⊢
    exact ih hd hnames

theorem locateFrom_root {new : Bool} {links : Nat} (hd : tree.IsDirectory place)
    (hn : ∀ name ∈ place, IsUsable name) : tree.locateFrom new links [] place = .ok place := by
  have h : tree.locateFrom new links [] (place ++ []) = _ := locateFrom_directories hd hn
  rwa [List.append_nil, List.nil_append, locateFrom] at h

theorem IsDirectory.isCanonical (hd : tree.IsDirectory place)
    (hn : ∀ name ∈ place, IsUsable name) : tree.IsCanonical place := by
  intro above name ha
  refine ⟨(hn name (ha.subset (by simp))).1, fun target ht => ?_⟩
  cases (hd _ ha).symm.trans ht

/-- Where the links are the same, a path leads to the same directory, if it is still there. -/
theorem SameLinks.canonical (h : SameLinks tree tree') (hd : tree'.IsDirectory place)
    (hn : ∀ name ∈ place, IsUsable name) (hc : tree.canonical host start p = .ok place) :
    tree'.canonical host start p = .ok place := by
  unfold FileTree.canonical at hc ⊢
  rw [h.resolveFrom_eq]
  generalize tree.resolveFrom host _ _ _ _ = resolution at hc ⊢
  obtain fault | found := resolution
  · cases hc
  have hplace : found.place = place := by
    dsimp only at hc
    split_ifs at hc
    · exact Except.ok.inj hc
    · split at hc
      · cases hc
      · exact Except.ok.inj hc
  dsimp only at hc ⊢
  rw [hplace] at hc ⊢
  rw [locateFrom_root hd hn]
  split_ifs at hc ⊢ <;> rfl

/-- Where all directories are there, none is made. -/
theorem makeWay_of_isDirectory (hd : tree.IsDirectory (start ++ names))
    (hn : ∀ name ∈ names, IsUsable name) : tree.makeWay start names.reverse = .ok tree := by
  induction names using List.reverseRecOn with
  | nil => rfl
  | append_singleton names name ih =>
    obtain ⟨hnames, hname⟩ := List.forall_mem_append.mp hn
    obtain ⟨hentry, hlong⟩ := hname name (List.mem_singleton_self name)
    have habove : tree.IsDirectory (start ++ names) := hd.above (by simp)
    have hlocate : tree.locateFrom false maxLinks start names = .ok (start ++ names) := by
      have h : tree.locateFrom false maxLinks start (names ++ []) = _ :=
        locateFrom_directories habove hnames
      rwa [List.append_nil, locateFrom] at h
    have hplace : tree.entry? (start ++ names ++ [name]) = some .directory :=
      hd _ (by simp)
    have hmake : tree.makeDirectory start names name = .ok tree := by
      unfold makeDirectory
      simp only [hlocate]
      rw [if_neg (by simpa using habove _ List.prefix_rfl), if_neg hentry.2,
        if_neg (by simp [hlong])]
      simp only [hplace]
    rw [List.reverse_append, List.reverse_singleton, List.singleton_append, makeWay,
      List.reverse_reverse]
    simp only [hlocate, hmake]

/-- A path that can be opened and whose names, from where it starts, are those of a directory
and then a last one. -/
structure Spells (tree : FileTree) (p : Path) (base : Place) (name : String) : Prop where
  names : ∃ front, p.parts = front ++ [name] ∧ tree.start p ++ front = base
  fits : p.text.utf8ByteSize ≤ maxPathBytes

/-- A file that is opened in a directory to be written, there or new: no directory is made. -/
theorem openForWriting_of_spells (hd : tree.IsDirectory base) (hb : ∀ name ∈ base, IsUsable name)
    (hz : Named (hasNul · = false) (base ++ [name])) (hn : IsUsable name)
    (he : ∀ entry, tree.entry? (base ++ [name]) = some entry → ∃ content, entry = .file content)
    (hp : tree.Spells p base name) : tree.openForWriting p = .ok (tree, base ++ [name]) := by
  obtain ⟨⟨front, hparts, rfl⟩, hfits⟩ := hp
  have hfront : ∀ name ∈ front, IsUsable name := fun name hm => hb name (List.mem_append_right _ hm)
  have hnul : ¬ p.parts.any hasNul = true := by
    rw [List.append_assoc, ← hparts] at hz
    simpa [Named] using (named_append.mp hz).2
  have hidle : ∀ name ∈ p.parts, isIdle name = false := by
    rw [hparts]
    exact List.forall_mem_append.mpr ⟨fun name hm => (hfront name hm).1.1, by simpa using hn.1.1⟩
  have hparents : tree.makeParents p = .ok tree := by
    rw [makeParents, if_neg hnul,
      if_neg (Nat.not_lt.mpr ((Path.utf8ByteSize_text_parent_le hidle).trans hfits)),
      show p.parent.parts = front by rw [Path.parent, hparts, List.dropLast_concat]]
    exact makeWay_of_isDirectory hd hfront
  have hlocate : tree.locateAs true p = .ok (tree.start p ++ front ++ [name]) := by
    rw [locateAs, if_neg hnul, if_neg (Nat.not_lt.mpr hfits), hparts,
      locateFrom_directories hd hfront, locateFrom, if_neg (by simp [hn.1.1]), if_neg hn.1.2,
      if_neg (by simp [hn.2])]
    dsimp only
    cases hentry : tree.entry? (tree.start p ++ front ++ [name]) with
    | none => rfl
    | some entry =>
      obtain ⟨content, rfl⟩ := he entry hentry
      rfl
  have hfile : tree.entry? (tree.start p ++ front ++ [name]) ≠ some .directory := by
    intro hentry
    obtain ⟨content, hcontent⟩ := he _ hentry
    cases hcontent
  rw [openForWriting, hparents]
  simp only [hlocate, if_neg hfile]

/-! ### A file that is put in a directory -/

theorem lookup_put (tree : FileTree) (entry : Entry) (other : Place) (h : place ≠ []) :
    FileTree.entry? (tree.put place entry) other =
      if other = place then some entry else tree.entry? other := by
  by_cases ho : other = []
  · rw [ho, if_neg (Ne.symm h)]
    rfl
  rw [FileTree.entry?, FileTree.entry?, if_neg ho, if_neg ho, put, List.find?_cons]
  by_cases heq : place = other
  · simp [heq]
  · rw [if_neg (Ne.symm heq), decide_eq_false heq]
    dsimp only
    rw [List.find?_filter]
    congr 2
    funext old
    by_cases hold : old.1 = other
    · simp [hold, Ne.symm heq]
    · simp [hold]

theorem sameLinks_put (h : ∀ target, tree.entry? place ≠ some (.link target)) (hp : place ≠ [])
    (content : List UInt8) : SameLinks tree (tree.put place (.file content)) := by
  intro link target
  rw [lookup_put _ _ _ hp]
  split
  · rename_i heq
    subst heq
    simpa using h target
  · exact Iff.rfl

end FileTree

end Mustache.Files
