import Mustache.Proofs.Engine.Refusal

/-! Bytes that are added to a file. Trees with the same shape differ in what their files hold,
and in nothing else: every path leads to the same place in both, or fails alike, and the same
files are found. What is added to one file is seen by those alone who read this file. -/

namespace Mustache

open Files

namespace Files.FileTree

/-- What stands at one place of two trees of the same shape. -/
inductive SameKind : Option Entry → Option Entry → Prop
  | nothing : SameKind none none
  | file (content content' : List UInt8) : SameKind (some (.file content)) (some (.file content'))
  | directory : SameKind (some .directory) (some .directory)
  | link (target : String) : SameKind (some (.link target)) (some (.link target))

/-- Two trees that differ at most in what their files hold. -/
structure SameShape (tree tree' : FileTree) : Prop where
  entries : ∀ place, SameKind (tree.entry? place) (tree'.entry? place)
  workingDirectory : tree'.workingDirectory = tree.workingDirectory

variable {tree tree' : FileTree} {host : Host} {place start other : Place}
  {bytes more : List UInt8} {p : Path}

/-! ### Trees of the same shape -/

namespace SameShape

theorem locateFrom (h : SameShape tree tree') (new : Bool) (links : Nat) (directory : Place)
    (names : List String) :
    tree'.locateFrom new links directory names = tree.locateFrom new links directory names := by
  -- A link that is followed leaves fewer links and other names, each other step fewer names.
  induction links using Nat.strongRecOn generalizing directory names with
  | ind links ihlinks =>
    induction names generalizing directory with
    | nil => rw [FileTree.locateFrom, FileTree.locateFrom]
    | cons name rest ih =>
      rw [FileTree.locateFrom, FileTree.locateFrom, ih, ih]
      dsimp only
      have hkind := h.entries (directory ++ [name])
      generalize tree.entry? (directory ++ [name]) = entry at hkind ⊢
      generalize tree'.entry? (directory ++ [name]) = entry' at hkind ⊢
      cases hkind with
      | nothing | file => rfl
      | directory => simp only [ih]
      | link target =>
        cases links with
        | zero => rfl
        | succ links => simp only [ihlinks links (Nat.lt_succ_self links)]

theorem locate (h : SameShape tree tree') (p : Path) : tree'.locate p = tree.locate p := by
  rw [FileTree.locate, FileTree.locate, locateAs, locateAs, h.locateFrom, start, start,
    h.workingDirectory]

theorem resolveFrom (h : SameShape tree tree') (levels : Nat) (place : Place) (met : Met)
    (names : List String) :
    tree'.resolveFrom host levels place met names =
      tree.resolveFrom host levels place met names := by
  induction levels using Nat.strongRecOn generalizing place met names with
  | ind levels ihlevels =>
    induction names generalizing place met with
    | nil => rw [FileTree.resolveFrom, FileTree.resolveFrom]
    | cons name rest ih =>
      rw [FileTree.resolveFrom, FileTree.resolveFrom, ih, ih]
      dsimp only
      have hkind := h.entries (place ++ [name])
      generalize tree.entry? (place ++ [name]) = entry at hkind ⊢
      generalize tree'.entry? (place ++ [name]) = entry' at hkind ⊢
      cases hkind with
      | nothing | file | directory => simp only [ih]
      | link target =>
        cases levels with
        | zero => simp only [ih]
        | succ levels => simp only [ih, ihlevels levels (Nat.lt_succ_self levels)]

theorem canonical (h : SameShape tree tree') (start : Place) (p : Path) :
    tree'.canonical host start p = tree.canonical host start p := by
  rw [FileTree.canonical, FileTree.canonical, h.resolveFrom]
  simp only [h.locateFrom]

theorem isFile (h : SameShape tree tree') (place : Place) :
    tree'.isFile host place = tree.isFile host place := by
  rw [FileTree.isFile, FileTree.isFile, h.locateFrom]
  split
  · rfl
  cases host.asked place with
  | some fault => rfl
  | none =>
    cases tree.locateFrom false maxLinks [] place with
    | error fault => cases fault <;> rfl
    | ok found =>
      have hkind := h.entries found
      dsimp only
      generalize tree.entry? found = entry at hkind ⊢
      generalize tree'.entry? found = entry' at hkind ⊢
      cases hkind <;> rfl

theorem findFile (h : SameShape tree tree') (name : Path) (searchPath : List Path) :
    Loader.findFile host tree' name searchPath = Loader.findFile host tree name searchPath := by
  induction searchPath with
  | nil => rfl
  | cons directory rest ih =>
    simp only [Loader.findFile, h.workingDirectory, h.canonical, h.isFile, ih]

end SameShape

/-! ### Files that grow -/

theorem append_entry_nil (entry : Entry) : entry.append [] = entry := by
  cases entry with
  | file content => rw [Entry.append, List.append_nil]
  | directory | link => rfl

theorem append_entry_append (entry : Entry) (bytes more : List UInt8) :
    (entry.append bytes).append more = entry.append (bytes ++ more) := by
  cases entry with
  | file content => simp only [Entry.append, List.append_assoc]
  | directory | link => rfl

@[simp] theorem append_nil (tree : FileTree) (place : Place) : tree.append place [] = tree := by
  have hsame : (fun entry : Place × Entry =>
      if entry.1 = place then (place, entry.2.append []) else entry) = id := by
    funext entry
    split
    · rename_i h
      rw [append_entry_nil, ← h, id]
    · rfl
  rw [append, hsame, List.map_id]

@[simp] theorem append_append (tree : FileTree) (place : Place) (bytes more : List UInt8) :
    (tree.append place bytes).append place more = tree.append place (bytes ++ more) := by
  rw [append, append, append, List.map_map]
  congr 2
  funext entry
  by_cases h : entry.1 = place
  · simp [h, append_entry_append]
  · simp [h]

theorem lookup_append (tree : FileTree) (place : Place) (bytes : List UInt8) (other : Place) :
    FileTree.entry? (tree.append place bytes) other =
      if other = place then (tree.entry? other).map (Entry.append bytes)
      else tree.entry? other := by
  by_cases ho : other = []
  · subst ho
    rw [FileTree.entry?, FileTree.entry?, if_pos rfl, if_pos rfl]
    split <;> rfl
  rw [FileTree.entry?, FileTree.entry?, if_neg ho, if_neg ho, append, List.find?_map]
  have hplaces : ((fun entry : Place × Entry => decide (entry.1 = other)) ∘ fun entry =>
      if entry.1 = place then (place, entry.2.append bytes) else entry) =
        fun entry => decide (entry.1 = other) := by
    funext entry
    by_cases h : entry.1 = place <;> simp [h]
  rw [hplaces]
  cases hfound : tree.entries.find? fun entry => entry.1 = other with
  | none => simp
  | some entry =>
    have hentry : entry.1 = other := by simpa using List.find?_some hfound
    by_cases h : other = place
    · simp [hentry, h]
    · simp [hentry, h]

theorem SameKind.refl (found : Option Entry) : SameKind found found := by
  obtain _ | _ | _ | _ := found
  · exact .nothing
  · exact .file _ _
  · exact .directory
  · exact .link _

theorem SameKind.append (found : Option Entry) (bytes : List UInt8) :
    SameKind found (found.map (Entry.append bytes)) := by
  obtain _ | _ | _ | _ := found
  · exact .nothing
  · exact .file _ _
  · exact .directory
  · exact .link _

theorem sameShape_append (tree : FileTree) (place : Place) (bytes : List UInt8) :
    SameShape tree (tree.append place bytes) where
  entries other := by
    rw [lookup_append]
    split
    · exact .append _ bytes
    · exact .refl _
  workingDirectory := rfl

theorem read_append_of_ne (h : tree.locate p ≠ .ok place) :
    (tree.append place bytes).read p = tree.read p := by
  rw [read, read, (sameShape_append tree place bytes).locate]
  cases hlocate : tree.locate p with
  | error fault => rfl
  | ok found =>
    have hfound : found ≠ place := by
      rintro rfl
      exact h hlocate
    dsimp only
    rw [lookup_append, if_neg hfound]

/-- A file that grows does not become unreadable, nor readable. -/
theorem read_append_cases (tree : FileTree) (place : Place) (bytes : List UInt8) (p : Path) :
    (∃ fault, tree.read p = .error fault ∧ (tree.append place bytes).read p = .error fault) ∨
      ∃ content content', tree.read p = .ok content ∧
        (tree.append place bytes).read p = .ok content' := by
  rw [read, read, (sameShape_append tree place bytes).locate]
  cases tree.locate p with
  | error fault => exact .inl ⟨fault, rfl, rfl⟩
  | ok found =>
    have hkind := (sameShape_append tree place bytes).entries found
    dsimp only
    generalize tree.entry? found = entry at hkind ⊢
    generalize FileTree.entry? (tree.append place bytes) found = entry' at hkind ⊢
    cases hkind with
    | nothing => exact .inl ⟨.missing, rfl, rfl⟩
    | directory | link => exact .inl ⟨.isADirectory, rfl, rfl⟩
    | file content content' => exact .inr ⟨content, content', rfl, rfl⟩

end Files.FileTree

namespace Loader

variable {loader : Loader} {host : Host} {tree : FileTree} {place found : Place}
  {bytes : List UInt8} {identifier : String} {failure : Failure}

/-- The source of an identifier is the file at a place. -/
def ReadsFrom (place : Place) (identifier : String) : Loader → Prop
  | .memory .. => False
  | .files host tree searchPath extension _ =>
    ∃ found,
      findFile host tree (Path.ofText (identifier ++ extension)) searchPath = .ok (some found) ∧
      tree.locate ⟨.slash, found⟩ = .ok place

theorem changeFiles_append_nil (loader : Loader) (place : Place) :
    loader.changeFiles (·.append place []) = loader := by
  cases loader <;> simp [changeFiles]

theorem changeFiles_append_append (loader : Loader) (place : Place) (bytes more : List UInt8) :
    (loader.changeFiles (·.append place bytes)).changeFiles (·.append place more) =
      loader.changeFiles (·.append place (bytes ++ more)) := by
  cases loader <;> simp [changeFiles]

theorem openFile_append_of_ne (h : tree.locate ⟨.slash, found⟩ ≠ .ok place) :
    openFile host (tree.append place bytes) found = openFile host tree found := by
  rw [openFile, openFile, FileTree.read_append_of_ne h]

theorem openFile_append_cases (host : Host) (tree : FileTree) (place : Place)
    (bytes : List UInt8) (found : Place) :
    (∃ fault, openFile host tree found = .error fault ∧
      openFile host (tree.append place bytes) found = .error fault) ∨
      ∃ content content', openFile host tree found = .ok content ∧
        openFile host (tree.append place bytes) found = .ok content' := by
  rw [openFile, openFile]
  cases host.opened found with
  | some fault => exact .inl ⟨_, rfl, rfl⟩
  | none => exact FileTree.read_append_cases tree place bytes _

theorem load_append_of_not_readsFrom (h : ¬ loader.ReadsFrom place identifier) :
    (loader.changeFiles (·.append place bytes)).load identifier = loader.load identifier := by
  cases loader with
  | memory sources maxSize => rfl
  | files host tree searchPath extension maxSize =>
    rw [changeFiles, load, load, (FileTree.sameShape_append tree place bytes).findFile]
    split
    · rfl
    · rfl
    · rename_i found hfound
      have hother : tree.locate ⟨.slash, found⟩ ≠ .ok place := fun hplace =>
        h ⟨found, hfound, hplace⟩
      rw [openFile_append_of_ne hother]

/-- What escapes the loader escapes it whatever a file holds. -/
theorem load_append_eq_error_iff (hf : ∀ e, failure ≠ .template e) :
    (loader.changeFiles (·.append place bytes)).load identifier = .error failure ↔
      loader.load identifier = .error failure := by
  cases loader with
  | memory sources maxSize => rfl
  | files host tree searchPath extension maxSize =>
    rw [changeFiles, load, load, (FileTree.sameShape_append tree place bytes).findFile]
    split
    · rfl
    · rfl
    · rename_i found hfound
      rcases openFile_append_cases host tree place bytes found with
        ⟨cause, hopen, hopen'⟩ | ⟨content, content', hopen, hopen'⟩
      · rw [hopen, hopen']
      · -- Whether there is memory for what is read depends on the limit alone.
        have hsize (bytes : List UInt8) : checkSize identifier maxSize bytes ≠ .error failure := by
          intro h
          rw [checkSize_eq_error h] at hf
          exact hf _ rfl
        simp only [hopen, hopen', takeBytes]
        split_ifs <;> simp [hsize]

end Loader

end Mustache
