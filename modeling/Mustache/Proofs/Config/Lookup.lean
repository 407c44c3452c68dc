import Mustache.Config.Table

/-! What is found in tables that were set at paths and merged. A value that is set is found
at its path and below, tables lead to it, and what lies at other paths stays. Of two tables
that are merged, the second decides what is found at a path, unless it has nothing there; how
far a merge goes down is told by the paths at which both hold a table. -/

namespace Mustache

open Data

def Data.Document.IsTable (d : Document) : Prop := ∃ entries, d = .table entries

namespace Config

/-- Two paths of which neither leads on from the other. -/
def Apart (p q : List String) : Prop := ¬ p <+: q ∧ ¬ q <+: p

variable {p q front rest : List String} {key other : String} {table base override : Table}
  {d v : Document} {n : Nat}

theorem Apart.symm (h : Apart p q) : Apart q p := ⟨h.2, h.1⟩

theorem Apart.ne_nil (h : Apart p q) : p ≠ [] := fun hp => h.1 (by simp [hp])

theorem apart_cons : Apart (key :: p) (other :: q) ↔ (key = other → Apart p q) := by
  simp only [Apart, List.cons_prefix_cons]
  grind

/-! ### Lookups -/

@[simp] theorem lookup?_nil (d : Document) : lookup? [] d = some d := by cases d <;> rfl

theorem lookup?_cons (key : String) (path : List String) (table : Table) :
    lookup? (key :: path) (.table table) = (Fields.find? key table).bind (lookup? path) := by
  rw [lookup?]
  cases Fields.find? key table <;> rfl

/-- Only tables lead on. -/
theorem isTable_of_lookup? (h : lookup? p d = some v) (hp : p ≠ []) : d.IsTable := by
  obtain ⟨key, path, rfl⟩ := List.exists_cons_of_ne_nil hp
  cases d with
  | table entries => exact ⟨entries, rfl⟩
  | _ => cases h

theorem lookup?_of_not_isTable (h : ¬ d.IsTable) (hp : p ≠ []) : lookup? p d = none :=
  Option.eq_none_iff_forall_ne_some.mpr fun _ hl => h (isTable_of_lookup? hl hp)

theorem lookup?_append (front rest : List String) (d : Document) :
    lookup? (front ++ rest) d = (lookup? front d).bind (lookup? rest) := by
  induction front generalizing d with
  | nil => simp
  | cons key path ih =>
    by_cases hd : d.IsTable
    · obtain ⟨entries, rfl⟩ := hd
      rw [List.cons_append, lookup?_cons, lookup?_cons, Option.bind_assoc]
      exact Option.bind_congr fun d _ => ih d
    · rw [List.cons_append, lookup?_of_not_isTable hd (by simp),
        lookup?_of_not_isTable hd (by simp),
        Option.bind_none]

/-- On the way to a table there are tables. -/
theorem isTable_of_leads_on {entries : Table} (hf : front <+: p)
    (h : lookup? p d = some (.table entries)) (hl : lookup? front d = some v) : v.IsTable := by
  obtain ⟨rest, rfl⟩ := hf
  rw [lookup?_append, hl, Option.bind_some] at h
  by_cases hr : rest = []
  · subst hr
    exact ⟨entries, by simpa using h⟩
  · exact isTable_of_lookup? h hr

/-- What is no table under a key leads no further, as an empty table does not. -/
theorem lookup?_tableAt (hp : p ≠ []) :
    lookup? p (.table (tableAt key table)) = lookup? (key :: p) (.table table) := by
  obtain ⟨first, path, rfl⟩ := List.exists_cons_of_ne_nil hp
  rw [lookup?_cons key, tableAt]
  rcases Fields.find? key table with _ | d
  · simp [lookup?_cons]
  · cases d with
    | table entries => rfl
    | _ => simp [lookup?]

/-! ### Setting a value -/

theorem setPath_cons (hp : p ≠ []) :
    setPath (key :: p) v table =
      Fields.put key (.table (setPath p v (tableAt key table))) table := by
  cases p with
  | nil => exact absurd rfl hp
  | cons _ _ => rfl

/-- A value that is set is found at its path, and below it what is found in the value. -/
theorem lookup?_setPath_append (hp : p ≠ []) (rest : List String) (table : Table) :
    lookup? (p ++ rest) (.table (setPath p v table)) = lookup? rest v := by
  induction p generalizing table with
  | nil => exact absurd rfl hp
  | cons key path ih =>
    rw [List.cons_append, lookup?_cons]
    by_cases hpath : path = []
    · subst hpath
      simp [setPath, Fields.find?_put]
    · rw [setPath_cons hpath, Fields.find?_put, if_pos rfl, Option.bind_some, ih hpath]

theorem lookup?_setPath (hp : p ≠ []) (table : Table) :
    lookup? p (.table (setPath p v table)) = some v := by
  simpa using lookup?_setPath_append hp [] table

/-- Tables lead to a value that is set. -/
theorem exists_lookup?_setPath (hf : front ≠ []) (hr : rest ≠ []) (table : Table) :
    ∃ inner, lookup? front (.table (setPath (front ++ rest) v table)) = some (.table inner) := by
  induction front generalizing table with
  | nil => exact absurd rfl hf
  | cons key path ih =>
    rw [List.cons_append, setPath_cons (by simp [hr]), lookup?_cons, Fields.find?_put, if_pos rfl,
      Option.bind_some]
    by_cases hpath : path = []
    · subst hpath
      exact ⟨_, lookup?_nil _⟩
    · exact ih hpath _

theorem lookup?_setPath_of_apart (h : Apart p q) (table : Table) :
    lookup? q (.table (setPath p v table)) = lookup? q (.table table) := by
  induction p generalizing q table with
  | nil => exact absurd rfl h.ne_nil
  | cons key path ih =>
    obtain ⟨other, below, rfl⟩ := List.exists_cons_of_ne_nil h.symm.ne_nil
    by_cases hk : key = other
    · subst hk
      have hbelow : Apart path below := apart_cons.mp h rfl
      rw [setPath_cons hbelow.ne_nil, lookup?_cons, Fields.find?_put, if_pos rfl, Option.bind_some,
        ih hbelow, lookup?_tableAt hbelow.symm.ne_nil]
    · have hset : ∃ d, setPath (key :: path) v table = Fields.put key d table := by
        cases path <;> exact ⟨_, rfl⟩
      obtain ⟨d, hd⟩ := hset
      rw [hd, lookup?_cons, lookup?_cons, Fields.find?_put, if_neg hk]

/-- Where no value is set there are only the tables on the way to the value. -/
theorem isTable_of_lookup?_setPath (hne : p ≠ q) (hv : ¬ v.IsTable)
    (ht : ∀ d, lookup? q (.table table) = some d → d.IsTable)
    (h : lookup? q (.table (setPath p v table)) = some d) : d.IsTable := by
  by_cases hpq : p <+: q
  · obtain ⟨rest, rfl⟩ := hpq
    by_cases hp : p = []
    · subst hp
      exact ht d h
    · rw [lookup?_setPath_append hp] at h
      exact absurd (isTable_of_lookup? h (by simpa using hne)) hv
  by_cases hqp : q <+: p
  · obtain ⟨rest, rfl⟩ := hqp
    by_cases hq : q = []
    · subst hq
      exact ⟨_, by simpa using h.symm⟩
    · obtain ⟨inner, hi⟩ := exists_lookup?_setPath hq (by simpa using hne) table
      cases hi.symm.trans h
      exact ⟨inner, rfl⟩
  · rw [lookup?_setPath_of_apart ⟨hpq, hqp⟩] at h
    exact ht d h

/-! ### Tables without repeated keys -/

def WellKeyed (d : Document) : Prop :=
  ∀ path inner, lookup? path d = some (.table inner) → (Fields.names inner).Nodup

theorem wellKeyed_of_not_isTable (h : ¬ d.IsTable) : WellKeyed d := by
  intro path inner hl
  by_cases hp : path = []
  · subst hp
    exact absurd ⟨inner, by simpa using hl⟩ h
  · rw [lookup?_of_not_isTable h hp] at hl
    cases hl

theorem wellKeyed_table : WellKeyed (.table table) ↔ (Fields.names table).Nodup ∧
    ∀ key d, Fields.find? key table = some d → WellKeyed d := by
  constructor
  · refine fun h => ⟨h [] table (lookup?_nil _), fun key d hd path inner hl => ?_⟩
    exact h (key :: path) inner (by rw [lookup?_cons, hd, Option.bind_some, hl])
  · rintro ⟨hn, h⟩ path inner hl
    cases path with
    | nil =>
      cases hl
      exact hn
    | cons key path =>
      rw [lookup?_cons] at hl
      obtain ⟨d, hd, hl⟩ := Option.bind_eq_some_iff.mp hl
      exact h key d hd path inner hl

theorem wellKeyed_of_forall_mem (hn : (Fields.names table).Nodup)
    (h : ∀ entry ∈ table, WellKeyed entry.2) : WellKeyed (.table table) := by
  refine wellKeyed_table.mpr ⟨hn, fun key d hd => ?_⟩
  obtain ⟨entry, hentry, rfl⟩ := Option.map_eq_some_iff.mp hd
  exact h entry (List.mem_of_find?_eq_some hentry)

theorem wellKeyed_nil : WellKeyed (.table []) :=
  wellKeyed_table.mpr ⟨List.nodup_nil, nofun⟩

theorem WellKeyed.put (h : WellKeyed (.table table)) (hd : WellKeyed d) (key : String) :
    WellKeyed (.table (Fields.put key d table)) := by
  obtain ⟨hn, hall⟩ := wellKeyed_table.mp h
  refine wellKeyed_table.mpr ⟨Fields.nodup_names_put hn key d, fun other d' hd' => ?_⟩
  rw [Fields.find?_put] at hd'
  split at hd'
  · cases hd'
    exact hd
  · exact hall other d' hd'

theorem WellKeyed.tableAt (h : WellKeyed (.table table)) (key : String) :
    WellKeyed (.table (tableAt key table)) := by
  unfold Config.tableAt
  split
  · exact (wellKeyed_table.mp h).2 key _ ‹_›
  · exact wellKeyed_nil

theorem WellKeyed.setPath (h : WellKeyed (.table table)) (hv : WellKeyed v) (p : List String) :
    WellKeyed (.table (setPath p v table)) := by
  induction p generalizing table with
  | nil => exact h
  | cons key path ih =>
    by_cases hpath : path = []
    · subst hpath
      exact h.put hv key
    · rw [setPath_cons hpath]
      exact h.put (ih (h.tableAt key)) key

/-! ### Merged tables -/

/-- Under each key the second table decides, as far as it has something there. -/
theorem find?_merge (hn : (Fields.names override).Nodup) (base : Table) :
    Fields.find? key (merge base override) =
      match Fields.find? key override with
      | none => Fields.find? key base
      | some d => some (mergeValue (Fields.find? key base) d) := by
  induction override generalizing base with
  | nil => rw [merge, Fields.find?_nil]
  | cons field rest ih =>
    obtain ⟨name, d⟩ := field
    obtain ⟨hnew, hrest⟩ := List.nodup_cons.mp hn
    rw [merge, ih hrest, Fields.find?_cons, Fields.find?_put]
    by_cases hk : name = key
    · subst hk
      simp [Fields.find?_eq_none_iff.mpr hnew]
    · simp [hk]

theorem mergeValue_of_not_isTable (h : ¬ d.IsTable) (base : Option Document) :
    mergeValue base d = d := by
  cases d with
  | table entries => exact absurd ⟨entries, rfl⟩ h
  | _ => rw [mergeValue]; exact nofun

theorem mergeValue_of_base_not_isTable {base : Option Document} (h : ∀ b ∈ base, ¬ b.IsTable)
    (d : Document) : mergeValue base d = d := by
  cases d with
  | table entries =>
    rw [mergeValue]
    intro inner hb
    exact absurd ⟨inner, rfl⟩ (h _ hb)
  | _ => rw [mergeValue]; exact nofun

@[simp] theorem mergeValue_none (d : Document) : mergeValue none d = d :=
  mergeValue_of_base_not_isTable (by simp) d

theorem mergeValue_table (inner entries : Table) :
    mergeValue (some (.table inner)) (.table entries) = .table (merge inner entries) := by
  rw [mergeValue]

theorem isTable_mergeValue (base : Option Document) (entries : Table) :
    (mergeValue base (.table entries)).IsTable := by
  rw [mergeValue.eq_def]
  dsimp only
  split
  · exact ⟨_, rfl⟩
  · exact ⟨entries, rfl⟩

/-- What the second table has at a path is found there, merged with what the first has. -/
theorem lookup?_merge_of_some (hw : WellKeyed (.table override))
    (h : lookup? p (.table override) = some d) (hp : p ≠ []) (base : Table) :
    lookup? p (.table (merge base override)) =
      some (mergeValue (lookup? p (.table base)) d) := by
  induction p generalizing base override with
  | nil => exact absurd rfl hp
  | cons key path ih =>
    obtain ⟨hn, hinner⟩ := wellKeyed_table.mp hw
    rw [lookup?_cons] at h
    obtain ⟨v, hv, hd⟩ := Option.bind_eq_some_iff.mp h
    rw [lookup?_cons, lookup?_cons, find?_merge hn, hv, Option.bind_some]
    by_cases hpath : path = []
    · subst hpath
      cases hd
      cases Fields.find? key base <;> simp
    -- The path leads on, so what the second table has under the key is a table.
    obtain ⟨entries, rfl⟩ := isTable_of_lookup? hd hpath
    rcases hb : Fields.find? key base with _ | b
    · rw [Option.bind_none, mergeValue_none, mergeValue_none, hd]
    by_cases hbt : b.IsTable
    · obtain ⟨inner, rfl⟩ := hbt
      rw [mergeValue_table, Option.bind_some, ih (hinner key _ hv) hd hpath]
    · rw [mergeValue_of_base_not_isTable (by simpa using hbt), Option.bind_some,
        lookup?_of_not_isTable hbt hpath, mergeValue_none, hd]

/-- Where the second table has nothing, the first decides, unless something other than a
table is in the way. -/
theorem lookup?_merge_of_none (hw : WellKeyed (.table override))
    (h : lookup? p (.table override) = none)
    (htables : ∀ front d, front ≠ [] → front <+: p → lookup? front (.table override) = some d →
      d.IsTable) (base : Table) :
    lookup? p (.table (merge base override)) = lookup? p (.table base) := by
  induction p generalizing base override with
  | nil => simp at h
  | cons key path ih =>
    obtain ⟨hn, hinner⟩ := wellKeyed_table.mp hw
    rw [lookup?_cons, lookup?_cons, find?_merge hn]
    rcases hv : Fields.find? key override with _ | v
    · rfl
    have hfirst : lookup? [key] (.table override) = some v := by simp [lookup?_cons, hv]
    obtain ⟨entries, rfl⟩ := htables [key] v (by simp) (by simp) hfirst
    have hrest : lookup? path (.table entries) = none := by simpa [lookup?_cons, hv] using h
    have hpath : path ≠ [] := by
      rintro rfl
      simp at hrest
    rw [Option.bind_some]
    rcases hb : Fields.find? key base with _ | b
    · rw [mergeValue_none, Option.bind_none, hrest]
    by_cases hbt : b.IsTable
    · obtain ⟨inner, rfl⟩ := hbt
      rw [mergeValue_table, Option.bind_some]
      refine ih (hinner key _ hv) hrest (fun front d hf hfp hl => ?_) inner
      refine htables (key :: front) d (by simp) (List.cons_prefix_cons.mpr ⟨rfl, hfp⟩) ?_
      rw [lookup?_cons, hv, Option.bind_some, hl]
    · rw [mergeValue_of_base_not_isTable (by simpa using hbt), Option.bind_some,
        lookup?_of_not_isTable hbt hpath, hrest]

/-! ### Tables that both have -/

theorem lt_overlapValue_iff {found : Option Document} : n < overlapValue found d ↔
    ∃ inner entries, found = some (.table inner) ∧ d = .table entries ∧
      n ≤ overlap inner entries := by
  constructor
  · intro h
    rw [overlapValue.eq_def] at h
    split at h
    · split at h
      · exact ⟨_, _, rfl, rfl, Nat.lt_succ_iff.mp h⟩
      · exact absurd h (Nat.not_lt_zero n)
    · exact absurd h (Nat.not_lt_zero n)
  · rintro ⟨inner, entries, rfl, rfl, h⟩
    rw [overlapValue]
    exact Nat.lt_succ_iff.mpr h

/-- Of the tables that two tables have in common some one is under the same key in both. -/
theorem lt_overlap_iff_exists_key (hn : (Fields.names override).Nodup) :
    n < overlap base override ↔
      ∃ key inner entries, Fields.find? key base = some (.table inner) ∧
        Fields.find? key override = some (.table entries) ∧ n ≤ overlap inner entries := by
  have hmem (override : Table) : n < overlap base override ↔
      ∃ entry ∈ override, n < overlapValue (Fields.find? entry.1 base) entry.2 := by
    induction override with
    | nil => simp [overlap]
    | cons entry rest ih =>
      rw [overlap]
      simp only [List.mem_cons, exists_eq_or_imp, ← ih]
      omega
  rw [hmem]
  constructor
  · rintro ⟨⟨key, d⟩, hentry, h⟩
    obtain ⟨inner, entries, hbase, rfl, hle⟩ := lt_overlapValue_iff.mp h
    exact ⟨key, inner, entries, hbase, Fields.find?_of_mem hn hentry, hle⟩
  · rintro ⟨key, inner, entries, hbase, hkey, h⟩
    obtain ⟨entry, hfind, hentry⟩ := Option.map_eq_some_iff.mp hkey
    obtain rfl : entry.1 = key := by simpa using List.find?_some hfind
    exact ⟨entry, List.mem_of_find?_eq_some hfind,
      lt_overlapValue_iff.mpr ⟨inner, entries, hbase, hentry, h⟩⟩

@[simp] theorem overlap_nil (override : Table) : overlap [] override = 0 := by
  induction override with
  | nil => rfl
  | cons entry rest ih =>
    have hvalue : ¬ 0 < overlapValue none entry.2 := by simp [lt_overlapValue_iff]
    rw [overlap, ih, Fields.find?_nil]
    omega

/-- Two tables have more than `n` tables within each other in common if there is a path of more
than `n` keys at which both of them hold a table. -/
theorem lt_overlap_iff (hw : WellKeyed (.table override)) : n < overlap base override ↔
    ∃ path inner entries, n < path.length ∧ lookup? path (.table base) = some (.table inner) ∧
      lookup? path (.table override) = some (.table entries) := by
  have htables {key : String} {path : List String} {table inner : Table}
      (h : lookup? (key :: path) (.table table) = some (.table inner)) :
      ∃ below, Fields.find? key table = some (.table below) ∧
        lookup? path (.table below) = some (.table inner) := by
    rw [lookup?_cons] at h
    obtain ⟨d, hd, hbelow⟩ := Option.bind_eq_some_iff.mp h
    obtain ⟨below, rfl⟩ := isTable_of_leads_on path.nil_prefix hbelow (lookup?_nil d)
    exact ⟨below, hd, hbelow⟩
  constructor
  · intro h
    induction n generalizing base override with
    | zero =>
      obtain ⟨key, inner, entries, hbase, hkey, -⟩ :=
        (lt_overlap_iff_exists_key (wellKeyed_table.mp hw).1).mp h
      exact ⟨[key], inner, entries, by simp, by simp [lookup?_cons, hbase],
        by simp [lookup?_cons, hkey]⟩
    | succ n ih =>
      obtain ⟨key, inner, entries, hbase, hkey, hle⟩ :=
        (lt_overlap_iff_exists_key (wellKeyed_table.mp hw).1).mp h
      obtain ⟨path, inner', entries', hlength, hinner, hentries⟩ :=
        ih ((wellKeyed_table.mp hw).2 key _ hkey) hle
      exact ⟨key :: path, inner', entries', by simpa using hlength,
        by rw [lookup?_cons, hbase, Option.bind_some, hinner],
        by rw [lookup?_cons, hkey, Option.bind_some, hentries]⟩
  · rintro ⟨path, inner, entries, hlength, hbase, hoverride⟩
    induction path generalizing n base override with
    | nil => simp at hlength
    | cons key path ih =>
      obtain ⟨inner', hkey, hbase⟩ := htables hbase
      obtain ⟨entries', hkey', hoverride⟩ := htables hoverride
      refine (lt_overlap_iff_exists_key (wellKeyed_table.mp hw).1).mpr
        ⟨key, inner', entries', hkey, hkey', ?_⟩
      cases n with
      | zero => exact Nat.zero_le _
      | succ n =>
        exact ih ((wellKeyed_table.mp hw).2 key _ hkey') (by simpa using hlength) hbase hoverride

end Config

end Mustache
