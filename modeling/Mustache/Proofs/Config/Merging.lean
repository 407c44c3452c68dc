import Mathlib.Tactic.Common
import Mustache.Proofs.Config.Lookup

/-! Merged tables, path by path. What the override has at a path is found there, merged with
what the base has if both are tables; below what is no table of the override nothing is found,
and where its path stops at a missing key the base stays. Main result: this tells everything
that a merge holds, its keys stand in the order of the base with the new ones behind them on
every level, and the same override has no more effect a second time. -/

namespace Mustache

open Data

/-- Induction over a document, with the entries of a table at once. -/
@[elab_as_elim]
theorem Data.Document.induction {P : Document → Prop} (other : ∀ d, ¬ d.IsTable → P d)
    (table : ∀ entries : List (String × Document), (∀ entry ∈ entries, P entry.2) →
      P (.table entries)) (d : Document) : P d := by
  refine Document.rec (motive_1 := P) (motive_2 := fun _ => True)
    (motive_3 := fun entries => ∀ entry ∈ entries, P entry.2) (motive_4 := fun entry => P entry.2)
    ?null ?bool ?int ?float ?text ?date ?list table ?nil ?cons ?noEntry ?entry ?pair d
  case null | bool | int | float | text | date | list =>
    intros
    exact other _ (by rintro ⟨entries, h⟩; cases h)
  case nil => trivial
  case cons => exact fun _ _ _ _ => trivial
  case noEntry => simp
  case entry => exact fun entry rest hentry hrest => List.forall_mem_cons.2 ⟨hentry, hrest⟩
  case pair => exact fun _ _ h => h

namespace Config

/-- The keys of the table at a path; there are none where no table is. -/
def keysAt (path : List String) (d : Document) : List String :=
  match lookup? path d with
  | some (.table entries) => Fields.names entries
  | _ => []

/-- What is found at a path of two merged tables, told by what each of them has there. -/
inductive MergedAt (base override : Table) (path : List String) : Option Document → Prop
  | value {d : Document} :
      lookup? path (.table override) = some d → ¬ d.IsTable →
      MergedAt base override path (some d)
  | table {entries : Table} :
      lookup? path (.table override) = some (.table entries) →
      (∀ d ∈ lookup? path (.table base), ¬ d.IsTable) →
      MergedAt base override path (some (.table entries))
  | both {inner entries : Table} :
      lookup? path (.table base) = some (.table inner) →
      lookup? path (.table override) = some (.table entries) →
      MergedAt base override path (some (.table (merge inner entries)))
  | below {front : List String} {d : Document} :
      front <+: path → front ≠ path →
      lookup? front (.table override) = some d → ¬ d.IsTable →
      MergedAt base override path none
  | kept {front : List String} {key : String} {entries : Table} :
      front ++ [key] <+: path →
      lookup? front (.table override) = some (.table entries) →
      Fields.find? key entries = none →
      MergedAt base override path (lookup? path (.table base))

variable {base override : Table} {path : List String} {key : String} {d : Document}
  {found : Option Document}

/-! ### Where a path stops -/

/-- A path at which nothing is found passes something that is no table, or stops at a key
that is missing. -/
theorem exists_stop (h : lookup? path (.table override) = none) :
    (∃ front d, front <+: path ∧ front ≠ path ∧ lookup? front (.table override) = some d ∧
      ¬ d.IsTable) ∨
    ∃ front key entries, front ++ [key] <+: path ∧
      lookup? front (.table override) = some (.table entries) ∧
      Fields.find? key entries = none := by
  induction path generalizing override with
  | nil => simp at h
  | cons key path ih =>
    cases hkey : Fields.find? key override with
    | none => exact .inr ⟨[], key, override, by simp, lookup?_nil _, hkey⟩
    | some d =>
      have hbelow : ∀ front, lookup? (key :: front) (.table override) = lookup? front d := by
        intro front
        rw [lookup?_cons, hkey, Option.bind_some]
      by_cases hd : d.IsTable
      · obtain ⟨entries, rfl⟩ := hd
        rw [hbelow] at h
        obtain ⟨front, v, hfront, hne, hv, hother⟩ | ⟨front, key', inner, hfront, hv, hmissing⟩ :=
          ih h
        · exact .inl ⟨key :: front, v, by simpa using hfront, by simpa using hne,
            by rw [hbelow, hv], hother⟩
        · exact .inr ⟨key :: front, key', inner, by simpa using hfront, by rw [hbelow, hv],
            hmissing⟩
      · refine .inl ⟨[key], d, by simp, ?_, by rw [hbelow, lookup?_nil], hd⟩
        rintro hpath
        rw [← hpath, hbelow, lookup?_nil] at h
        cases h

theorem exists_mergedAt (base override : Table) (path : List String) :
    ∃ found, MergedAt base override path found := by
  cases h : lookup? path (.table override) with
  | none =>
    obtain ⟨front, d, hfront, hne, hd, hother⟩ | ⟨front, key, entries, hfront, hd, hmissing⟩ :=
      exists_stop h
    · exact ⟨_, .below hfront hne hd hother⟩
    · exact ⟨_, .kept hfront hd hmissing⟩
  | some d =>
    by_cases hd : d.IsTable
    · obtain ⟨entries, rfl⟩ := hd
      by_cases hb : ∃ inner, lookup? path (.table base) = some (.table inner)
      · obtain ⟨inner, hb⟩ := hb
        exact ⟨_, .both hb h⟩
      · refine ⟨_, .table h ?_⟩
        rintro b hmem ⟨inner, rfl⟩
        exact hb ⟨inner, hmem⟩
    · exact ⟨_, .value h hd⟩

/-! ### What is found -/

/-- Below something that is no table nothing is found. -/
theorem lookup?_eq_none_of_prefix {front : List String} {table : Table} (hfront : front <+: path)
    (hne : front ≠ path) (h : lookup? front (.table table) = some d) (hd : ¬ d.IsTable) :
    lookup? path (.table table) = none := by
  obtain ⟨rest, rfl⟩ := hfront
  have hrest : rest ≠ [] := by
    rintro rfl
    exact hne (by simp)
  rw [lookup?_append, h, Option.bind_some, lookup?_of_not_isTable hd hrest]

theorem lookup?_merge_value (hw : WellKeyed (.table override))
    (h : lookup? path (.table override) = some d) (hd : ¬ d.IsTable) (base : Table) :
    lookup? path (.table (merge base override)) = some d := by
  have hpath : path ≠ [] := by
    rintro rfl
    cases h
    exact hd ⟨override, rfl⟩
  rw [lookup?_merge_of_some hw h hpath, mergeValue_of_not_isTable hd]

/-- Behind a missing key nothing is found. -/
theorem lookup?_eq_none_of_missing {front : List String} {table entries : Table}
    (hfront : front ++ [key] <+: path) (h : lookup? front (.table table) = some (.table entries))
    (hmissing : Fields.find? key entries = none) : lookup? path (.table table) = none := by
  obtain ⟨rest, rfl⟩ := hfront
  rw [List.append_assoc, lookup?_append, h, Option.bind_some, List.singleton_append,
    lookup?_cons, hmissing, Option.bind_none]

/-- Where the path of the override stops at a missing key the base stays. -/
theorem lookup?_merge_kept {front : List String} {entries : Table}
    (hw : WellKeyed (.table override)) (hfront : front ++ [key] <+: path)
    (h : lookup? front (.table override) = some (.table entries))
    (hmissing : Fields.find? key entries = none) (base : Table) :
    lookup? path (.table (merge base override)) = lookup? path (.table base) := by
  have hnothing := lookup?_eq_none_of_missing hfront h hmissing
  refine lookup?_merge_of_none hw hnothing (fun part v _ hpart hv => ?_) base
  -- a part of the path at which something is found does not reach the missing key
  have hreach : ¬ front ++ [key] <+: part := by
    intro hlong
    rw [lookup?_eq_none_of_missing hlong h hmissing] at hv
    cases hv
  obtain hshort | hlong := List.prefix_or_prefix_of_prefix hpart hfront
  · obtain rfl | hbefore := List.prefix_concat_iff.1 hshort
    · exact absurd (List.prefix_refl _) hreach
    · exact isTable_of_leads_on hbefore h hv
  · exact absurd hlong hreach

/-- What a merge holds at a path is what the two tables have there. -/
theorem MergedAt.lookup?_merge (hw : WellKeyed (.table override))
    (h : MergedAt base override path found) :
    lookup? path (.table (merge base override)) = found := by
  cases h with
  | value h hd => exact lookup?_merge_value hw h hd base
  | table h hb =>
    have hpath : path ≠ [] := by
      rintro rfl
      exact hb (.table base) (lookup?_nil _) ⟨base, rfl⟩
    rw [lookup?_merge_of_some hw h hpath, mergeValue_of_base_not_isTable hb]
  | both hb h =>
    by_cases hpath : path = []
    · subst hpath
      cases hb
      cases h
      exact lookup?_nil _
    · rw [lookup?_merge_of_some hw h hpath, hb, mergeValue_table]
  | below hfront hne h hd =>
    exact lookup?_eq_none_of_prefix hfront hne (lookup?_merge_value hw h hd base) hd
  | kept hfront h hmissing => exact lookup?_merge_kept hw hfront h hmissing base

theorem lookup?_merge_eq_iff (hw : WellKeyed (.table override)) :
    lookup? path (.table (merge base override)) = found ↔ MergedAt base override path found := by
  constructor
  · rintro rfl
    obtain ⟨found, h⟩ := exists_mergedAt base override path
    rw [h.lookup?_merge hw]
    exact h
  · exact MergedAt.lookup?_merge hw

/-! ### The order of keys -/

theorem names_merge (hn : (Fields.names override).Nodup) (base : Table) :
    Fields.names (merge base override) =
      Fields.names base ++ (Fields.names override).filter fun key => key ∉ Fields.names base := by
  induction override generalizing base with
  | nil => simp [merge, Fields.names]
  | cons entry rest ih =>
    obtain ⟨key, d⟩ := entry
    obtain ⟨hnew, hrest⟩ := List.nodup_cons.mp hn
    have hnames : Fields.names ((key, d) :: rest) = key :: Fields.names rest := rfl
    rw [merge, ih hrest, Fields.names_put, hnames]
    by_cases hkey : key ∈ Fields.names base
    · rw [if_pos hkey, List.filter_cons_of_neg (by simpa using hkey)]
    · rw [if_neg hkey, List.filter_cons_of_pos (by simpa using hkey), List.append_assoc,
        List.singleton_append]
      congr 2
      -- the key that is now set does not come again
      refine List.filter_congr fun other hother => ?_
      have hne : other ≠ key := fun h => hnew (h ▸ hother)
      simp [hne]

theorem keysAt_eq {entries : Table} (h : lookup? path d = some (.table entries)) :
    keysAt path d = Fields.names entries := by
  rw [keysAt, h]

theorem keysAt_of_forall_not_isTable (h : ∀ v ∈ lookup? path d, ¬ v.IsTable) :
    keysAt path d = [] := by
  unfold keysAt
  split
  · rename_i entries hentries
    exact absurd ⟨entries, rfl⟩ (h _ hentries)
  · rfl

/-- On every level the keys of the base come first, and the new ones of the override behind
them. -/
theorem names_of_lookup?_merge (hw : WellKeyed (.table override)) {entries : Table}
    (h : lookup? path (.table (merge base override)) = some (.table entries)) :
    Fields.names entries = keysAt path (.table base) ++
      (keysAt path (.table override)).filter fun key => key ∉ keysAt path (.table base) := by
  rw [lookup?_merge_eq_iff hw] at h
  generalize hfound : some (Document.table entries) = found at h
  cases h with
  | value h hd =>
    cases hfound
    exact absurd ⟨entries, rfl⟩ hd
  | table h hb =>
    cases hfound
    rw [keysAt_of_forall_not_isTable hb, keysAt_eq h, List.nil_append]
    exact (List.filter_eq_self.2 (by simp)).symm
  | both hb h =>
    cases hfound
    rw [keysAt_eq hb, keysAt_eq h, names_merge (hw _ _ h)]
  | below => cases hfound
  | kept hfront h hmissing =>
    have hnothing := lookup?_eq_none_of_missing hfront h hmissing
    rw [keysAt_eq hfound.symm, keysAt_of_forall_not_isTable (by simp [hnothing])]
    simp

/-! ### The same override twice -/

/-- What is found as the override would have it stays. -/
theorem merge_eq_self {table : Table} (h : ∀ entry ∈ override,
    Fields.find? entry.1 table = some (mergeValue (Fields.find? entry.1 table) entry.2)) :
    merge table override = table := by
  induction override with
  | nil => rw [merge]
  | cons entry rest ih =>
    obtain ⟨key, d⟩ := entry
    obtain ⟨hfirst, hrest⟩ := List.forall_mem_cons.1 h
    rw [merge, Fields.put_eq_self hfirst, ih hrest]

theorem mergeValue_mergeValue (hw : WellKeyed d) (base : Option Document) :
    mergeValue (some (mergeValue base d)) d = mergeValue base d := by
  induction d using Document.induction generalizing base with
  | other d hd => rw [mergeValue_of_not_isTable hd, mergeValue_of_not_isTable hd]
  | table entries ih =>
    obtain ⟨hn, hinner⟩ := wellKeyed_table.mp hw
    have hentry : ∀ entry ∈ entries, ∀ base,
        mergeValue (some (mergeValue base entry.2)) entry.2 = mergeValue base entry.2 :=
      fun entry hmem => ih entry hmem (hinner entry.1 _ (Fields.find?_of_mem hn hmem))
    by_cases hb : ∃ inner, base = some (.table inner)
    · obtain ⟨inner, rfl⟩ := hb
      rw [mergeValue_table, mergeValue_table, merge_eq_self]
      intro entry hmem
      rw [find?_merge hn, Fields.find?_of_mem hn hmem]
      simp only [hentry entry hmem]
    · have hbase : ∀ b ∈ base, ¬ b.IsTable := by
        rintro b hmem ⟨inner, rfl⟩
        exact hb ⟨inner, hmem⟩
      rw [mergeValue_of_base_not_isTable hbase, mergeValue_table, merge_eq_self]
      intro entry hmem
      -- what a table holds overrides itself as it overrides nothing
      have hself := hentry entry hmem none
      rw [mergeValue_none] at hself
      rw [Fields.find?_of_mem hn hmem, hself]

theorem merge_merge (hw : WellKeyed (.table override)) (base : Table) :
    merge (merge base override) override = merge base override := by
  have htwice := mergeValue_mergeValue hw (some (.table base))
  rw [mergeValue_table, mergeValue_table] at htwice
  exact Document.table.inj htwice

/-- A merge holds at each path what the two tables have there, and nothing else; on every
level the keys of the base come first, and the new ones of the override behind them; and to
merge the same override again changes nothing. -/
theorem merge_told_by_paths (hw : WellKeyed (.table override)) (base : Table) :
    (∀ path found, lookup? path (.table (merge base override)) = found ↔
      MergedAt base override path found) ∧
    (∀ path entries, lookup? path (.table (merge base override)) = some (.table entries) →
      Fields.names entries = keysAt path (.table base) ++
        (keysAt path (.table override)).filter fun key => key ∉ keysAt path (.table base)) ∧
    merge (merge base override) override = merge base override :=
  ⟨fun _ _ => lookup?_merge_eq_iff hw, fun _ _ => names_of_lookup?_merge hw, merge_merge hw base⟩

/-- Settings in which `a` is a value, and `t` a table with the table `y`. -/
def clashingBase : Table := [("a", .int 1), ("t", .table [("x", .int 1), ("y", .table [])])]

/-- Settings in which `a` is a table, and `y` in `t` a value. -/
def clashingOverride : Table :=
  [("n", .null), ("t", .table [("z", .int 3), ("y", .int 2)]), ("a", .table [("b", .null)])]

theorem wellKeyed_clashingOverride : WellKeyed (.table clashingOverride) := by
  have hnull : WellKeyed .null := wellKeyed_of_not_isTable (by rintro ⟨entries, h⟩; cases h)
  have hint : ∀ i, WellKeyed (.int i) :=
    fun i => wellKeyed_of_not_isTable (by rintro ⟨entries, h⟩; cases h)
  have htable : WellKeyed (.table [("z", .int 3), ("y", .int 2)]) :=
    wellKeyed_of_forall_mem (by decide) (by simp [hint])
  have hsingle : WellKeyed (.table [("b", .null)]) :=
    wellKeyed_of_forall_mem (by decide) (by simp [hnull])
  exact wellKeyed_of_forall_mem (by decide) (by simp [clashingOverride, hnull, htable, hsingle])

theorem merge_told_by_paths_clashing :
    WellKeyed (.table clashingOverride) ∧
      lookup? ["t", "x"] (.table (merge clashingBase clashingOverride)) = some (.int 1) ∧
      lookup? ["t", "y"] (.table (merge clashingBase clashingOverride)) = some (.int 2) ∧
      lookup? ["t", "y", "w"] (.table (merge clashingBase clashingOverride)) = none ∧
      lookup? ["a"] (.table (merge clashingBase clashingOverride)) =
        some (.table [("b", .null)]) ∧
      Fields.names (merge clashingBase clashingOverride) = ["a", "t", "n"] := by
  obtain ⟨hpaths, hkeys, -⟩ := merge_told_by_paths wellKeyed_clashingOverride clashingBase
  have hint : ∀ i, ¬ (Document.int i).IsTable := by
    rintro i ⟨entries, h⟩
    cases h
  have hstop : ["t"] ++ ["x"] <+: ["t", "x"] := List.prefix_refl _
  have hfront : ["t", "y"] <+: ["t", "y", "w"] := List.prefix_append _ ["w"]
  refine ⟨wellKeyed_clashingOverride, ?_, ?_, ?_, ?_, ?_⟩
  · exact (hpaths _ _).2 (.kept hstop rfl rfl)
  · exact (hpaths _ _).2 (.value rfl (hint 2))
  · exact (hpaths _ _).2 (.below hfront (by decide) rfl (hint 2))
  · refine (hpaths _ _).2 (.table rfl fun d hd => ?_)
    cases hd
    exact hint 1
  · exact (hkeys [] _ (lookup?_nil _)).trans rfl

end Config

end Mustache
