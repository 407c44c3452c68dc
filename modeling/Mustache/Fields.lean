/-! Named fields in the order in which their names were first set. Records, tables and
settings are lists of such fields; setting a name again keeps its place. -/

namespace Mustache.Fields

variable {α : Type}

def find? (name : String) (fields : List (String × α)) : Option α :=
  (fields.find? fun field => field.1 = name).map Prod.snd

/-- Sets a name: in place if it is there, else behind all others. -/
def put (name : String) (value : α) : List (String × α) → List (String × α)
  | [] => [(name, value)]
  | field :: rest =>
    if field.1 = name then (name, value) :: rest else field :: put name value rest

/-- The fields that setting each name in turn leaves. -/
def ofList (fields : List (String × α)) : List (String × α) :=
  fields.foldl (fun done field => put field.1 field.2 done) []

def names (fields : List (String × α)) : List String := fields.map Prod.fst

@[simp] theorem find?_nil (name : String) : find? name ([] : List (String × α)) = none := rfl

theorem find?_cons (name : String) (field : String × α) (rest : List (String × α)) :
    find? name (field :: rest) = if field.1 = name then some field.2 else find? name rest := by
  by_cases h : field.1 = name <;> simp [find?, h]

/-- Setting a name changes what is found under it and nothing else. -/
theorem find?_put (name other : String) (value : α) (fields : List (String × α)) :
    find? other (put name value fields) =
      if name = other then some value else find? other fields := by
  induction fields with
  | nil => simp [put, find?_cons]
  | cons field rest ih =>
    rw [put]
    split
    · rename_i h
      by_cases ho : name = other <;> simp [find?_cons, h, ho]
    · rw [find?_cons, find?_cons, ih]
      grind

/-- A name that is set keeps its place, or comes last. -/
theorem names_put (name : String) (value : α) (fields : List (String × α)) :
    names (put name value fields) =
      if name ∈ names fields then names fields else names fields ++ [name] := by
  induction fields with
  | nil => simp [put, names]
  | cons field rest ih =>
    rw [put]
    split
    · rename_i h
      simp [names, h]
    · rename_i h
      simp only [names, List.map_cons, List.mem_cons] at ih ⊢
      rw [ih]
      grind

theorem find?_eq_none_iff {name : String} {fields : List (String × α)} :
    find? name fields = none ↔ name ∉ names fields := by
  simp only [find?, Option.map_eq_none_iff, List.find?_eq_none, decide_eq_true_eq, names,
    List.mem_map, not_exists, not_and]

theorem find?_of_mem {fields : List (String × α)} (h : (names fields).Nodup)
    {field : String × α} (hmem : field ∈ fields) : find? field.1 fields = some field.2 := by
  induction fields with
  | nil => cases hmem
  | cons first rest ih =>
    obtain ⟨hnew, hrest⟩ := List.nodup_cons.mp h
    rw [find?_cons]
    obtain rfl | hmem := List.mem_cons.mp hmem
    · rw [if_pos rfl]
    · have hne : first.1 ≠ field.1 := by
        intro heq
        exact hnew (heq ▸ List.mem_map_of_mem hmem)
      rw [if_neg hne, ih hrest hmem]

/-- Setting a name to what it holds changes nothing. -/
theorem put_eq_self {name : String} {value : α} {fields : List (String × α)}
    (h : find? name fields = some value) : put name value fields = fields := by
  induction fields with
  | nil => cases h
  | cons field rest ih =>
    rw [find?_cons] at h
    rw [put]
    split
    · rename_i hname
      rw [if_pos hname] at h
      cases h
      rw [← hname]
    · rename_i hname
      rw [if_neg hname] at h
      rw [ih h]

theorem nodup_names_put {fields : List (String × α)} (h : (names fields).Nodup) (name : String)
    (value : α) : (names (put name value fields)).Nodup := by
  rw [names_put]
  split
  · exact h
  · rename_i hnew
    refine List.nodup_append.mpr ⟨h, by simp, fun other ho last hl => ?_⟩
    rw [List.mem_singleton.mp hl]
    rintro rfl
    exact hnew ho

end Mustache.Fields
