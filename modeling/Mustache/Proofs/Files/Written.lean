import Mustache.Files.Path

/-! Paths and their written form. A path whose names stand between slashes and move is read
back from its text, and all paths that come from texts are of this kind. -/

namespace Mustache.Files

theorem subset_of_mem_splitOnP {α : Type} {p : α → Bool} {xs piece : List α}
    (h : piece ∈ xs.splitOnP p) : piece ⊆ xs.filter (!p ·) := by
  induction xs generalizing piece with
  | nil =>
    obtain rfl : piece = [] := by simpa using h
    exact List.nil_subset _
  | cons x xs ih =>
    rw [List.splitOnP_cons_eq_if_modifyHead] at h
    split at h
    · rename_i hx
      rw [List.filter_cons_of_neg (by simp [hx])]
      rcases List.mem_cons.mp h with rfl | h
      · exact List.nil_subset _
      · exact ih h
    · rename_i hx
      rw [List.filter_cons_of_pos (by simp [hx])]
      obtain ⟨first, others, hs⟩ := List.exists_cons_of_ne_nil (List.splitOnP_ne_nil p xs)
      rw [hs, List.modifyHead_cons] at h
      rw [hs] at ih
      rcases List.mem_cons.mp h with rfl | h
      · exact List.cons_subset_cons _ (ih List.mem_cons_self)
      · exact List.subset_cons_of_subset _ (ih (List.mem_cons_of_mem _ h))

/-- The names between the slashes of a text hold its characters, and no slash. -/
theorem mem_toList_of_mem_splitSlashes {text name : String} {c : Char}
    (h : name ∈ splitSlashes text) (hc : c ∈ name.toList) : c ∈ text.toList ∧ c ≠ '/' := by
  obtain ⟨piece, hp, rfl⟩ := List.mem_map.mp h
  rw [String.toList_ofList] at hc
  simpa using subset_of_mem_splitOnP hp hc

theorem splitSlashes_intercalate {names : List String} (hn : names ≠ [])
    (h : ∀ name ∈ names, '/' ∉ name.toList) : splitSlashes ("/".intercalate names) = names := by
  have hsplit : (['/'].intercalate (names.map String.toList)).splitOn '/' =
      names.map String.toList :=
    List.splitOn_intercalate '/' (by simpa using h) (by simpa using hn)
  rw [splitSlashes, String.toList_intercalate, ← List.splitOn_eq_splitOnP,
    show "/".toList = ['/'] from rfl, hsplit, List.map_map]
  simp

/-- An empty name stands in front of a slash at the start. -/
theorem splitSlashes_slash (text : String) :
    splitSlashes ("/" ++ text) = "" :: splitSlashes text := by
  simp [splitSlashes, List.splitOnP_cons_eq_if_modifyHead]

namespace Path

/-- The names of a path stand between slashes and move. -/
def IsWritten (p : Path) : Prop := ∀ name ∈ p.parts, isIdle name = false ∧ '/' ∉ name.toList

variable {p q : Path}

theorem isWritten_ofText (text : String) : (ofText text).IsWritten := by
  intro name hm
  obtain ⟨hs, hi⟩ := List.mem_filter.mp hm
  exact ⟨by simpa using hi, fun hslash => (mem_toList_of_mem_splitSlashes hs hslash).2 rfl⟩

theorem IsWritten.parent (h : p.IsWritten) : p.parent.IsWritten :=
  fun name hm => h name (List.dropLast_subset _ hm)

theorem IsWritten.join (hp : p.IsWritten) (hq : q.IsWritten) : (p.join q).IsWritten := by
  unfold Path.join
  split
  · exact hq
  · intro name hm
    rcases List.mem_append.mp hm with hm | hm
    · exact hp name hm
    · exact hq name hm

/-- The names of a path start with a character that is no slash. -/
theorem IsWritten.exists_toList {name : String} {rest : List String} {root : Root}
    (h : (Path.mk root (name :: rest)).IsWritten) :
    ∃ c tail, ("/".intercalate (name :: rest)).toList = c :: tail ∧ c ≠ '/' := by
  obtain ⟨hi, hs⟩ := h name List.mem_cons_self
  cases hname : name.toList with
  | nil => simp [isIdle, String.toList_eq_nil_iff.mp hname] at hi
  | cons c tail =>
    rw [hname] at hs
    have hc : c ≠ '/' := fun hc => hs (by simp [hc])
    cases rest with
    | nil => exact ⟨c, tail, by simp [hname], hc⟩
    | cons next others =>
      exact ⟨c, tail ++ '/' :: ("/".intercalate (next :: others)).toList,
        by simp [String.toList_intercalate, hname], hc⟩

theorem ofText_text (h : p.IsWritten) : ofText p.text = p := by
  obtain ⟨root, parts⟩ := p
  cases parts with
  | nil => cases root <;> decide
  | cons name rest =>
    obtain ⟨c, tail, hbody, hc⟩ := h.exists_toList
    have hnames : (splitSlashes ("/".intercalate (name :: rest))).filter (!isIdle ·) =
        name :: rest := by
      rw [splitSlashes_intercalate (by simp) fun name hm => (h name hm).2]
      exact List.filter_eq_self.mpr fun name hm => by simp [(h name hm).1]
    have htext (root : Root) : (Path.mk root (name :: rest)).text =
        root.text ++ "/".intercalate (name :: rest) := by
      refine if_neg fun hempty => ?_
      have := congrArg String.toList (String.isEmpty_iff.mp hempty)
      simp [hbody] at this
    have hslashes : (splitSlashes ("/" ++ "/".intercalate (name :: rest))).filter (!isIdle ·) =
        name :: rest := by
      rw [splitSlashes_slash, List.filter_cons_of_neg (by simp [isIdle]), hnames]
    -- Behind the root of the text comes a character that is no slash.
    rw [htext, ofText]
    cases root with
    | relative =>
      simp only [Root.text, String.empty_append, hnames, hbody]
      simp [hc]
    | slash =>
      simp only [Root.text, hslashes, String.toList_append, hbody,
        show "/".toList = ['/'] from rfl, List.cons_append, List.nil_append]
      simp [hc]
    | doubleSlash =>
      rw [show Root.doubleSlash.text = "/" ++ "/" from rfl, String.append_assoc, splitSlashes_slash,
        List.filter_cons_of_neg (by simp [isIdle]), hslashes]
      simp only [String.toList_append, hbody, show "/".toList = ['/'] from rfl, List.cons_append,
        List.nil_append]
      simp [hc]

theorem ofText_name {name : String} (hi : isIdle name = false) (hs : '/' ∉ name.toList) :
    ofText name = ⟨.relative, [name]⟩ := by
  have hwritten : (Path.mk .relative [name]).IsWritten := by simpa [IsWritten] using ⟨hi, hs⟩
  have hne : name ≠ "" := fun hempty => by simp [hempty, isIdle] at hi
  have htext : (Path.mk .relative [name]).text = name := by simp [text, Root.text, hne]
  rw [← ofText_text hwritten, htext]

end Path

end Mustache.Files
