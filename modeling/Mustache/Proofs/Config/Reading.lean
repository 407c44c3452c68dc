import Mustache.Config.File
import Mustache.Proofs.Config.Validation

/-! What is read from a settings file that parses. Its own table is the whole of a settings
file and a part of a project file, and nothing but a table may be on the way to it. Then its
directories are anchored, which all have to be texts; nothing else is changed. A load puts the
variables into this table and has the result checked. -/

namespace Mustache.Config

open Data Files

/-- A search path as it is written: one text or a list of texts. -/
inductive Spells : Document → List String → Prop
  | one (s : String) : Spells (.text s) [s]
  | many (texts : List String) : Spells (.list (texts.map .text)) texts

variable {host : Host} {tree : FileTree} {p directory : Path} {whole table : Table}

/-- On the way to our table in a project file there is something else than a table. -/
def Obstructed (p : Path) (whole : Table) : Prop :=
  p.name = projectFileName ∧ ∃ front d, front <+: projectKeys ∧
    lookup? front (.table whole) = some d ∧ ¬ d.IsTable

/-- The table of a file that holds our settings. It is empty where a project file has none. -/
def Owns (p : Path) (whole table : Table) : Prop :=
  if p.name = projectFileName then
    lookup? projectKeys (.table whole) = some (.table table) ∨
      lookup? projectKeys (.table whole) = none ∧ table = []
  else table = whole

theorem Owns.unique {other : Table} (h : Owns p whole table) (ho : Owns p whole other) :
    table = other := by
  unfold Owns at h ho
  split at h <;> rename_i hp
  · rw [if_pos hp] at ho
    rcases h with h | ⟨h, rfl⟩ <;> rcases ho with ho | ⟨ho, rfl⟩
    · simpa using h.symm.trans ho
    · cases h.symm.trans ho
    · cases h.symm.trans ho
    · rfl
  · rw [if_neg hp] at ho
    rw [h, ho]

/-- A directory as it is seen from another one, in its written form. -/
def anchored (directory : Path) (s : String) : Document :=
  .text (directory.join (.ofText s)).text

/-- A list with something that is no text. -/
def HoldsNonText (d : Document) : Prop :=
  ∃ items item, d = .list items ∧ item ∈ items ∧ ∀ s, item ≠ .text s

theorem Spells.not_holdsNonText {d : Document} {texts : List String} (h : Spells d texts) :
    ¬ HoldsNonText d := by
  rintro ⟨items, item, hl, hm, hi⟩
  cases h with
  | one s => cases hl
  | many texts =>
    cases hl
    obtain ⟨s, -, rfl⟩ := List.mem_map.mp hm
    exact hi s rfl

/-- What comes of a table whose search path is anchored. -/
inductive Anchors (directory : Path) (table : Table) : Except LoadFailure Table → Prop
  | untouched (h : ∀ d, Fields.find? "search_path" table = some d →
      ¬ HoldsNonText d ∧ ∀ texts, ¬ Spells d texts) : Anchors directory table (.ok table)
  | anchored {d texts} (h : Fields.find? "search_path" table = some d) (hs : Spells d texts) :
      Anchors directory table
        (.ok (Fields.put "search_path" (.list (texts.map (anchored directory))) table))
  | notAPath {d} (h : Fields.find? "search_path" table = some d) (hd : HoldsNonText d) :
      Anchors directory table (.error .notAPath)

/-- What comes of keys that are followed into a table. -/
inductive Descends (keys : List String) (table : Table) : Except LoadFailure Table → Prop
  | found {inner} (h : lookup? keys (.table table) = some (.table inner)) :
      Descends keys table (.ok inner)
  | missing (h : lookup? keys (.table table) = none)
      (ht : ∀ front d, front <+: keys → lookup? front (.table table) = some d → d.IsTable) :
      Descends keys table (.ok [])
  | notATable {front d} (hf : front <+: keys) (h : lookup? front (.table table) = some d)
      (hd : ¬ d.IsTable) : Descends keys table (.error .notATable)

theorem descends_descend (keys : List String) (table : Table) :
    Descends keys table (descend keys table) := by
  induction keys generalizing table with
  | nil => exact .found (by rw [lookup?_nil])
  | cons key keys ih =>
    rw [descend]
    split
    · rename_i hf
      refine .missing (by rw [lookup?_cons, hf, Option.bind_none]) fun front d hfront hl => ?_
      cases front with
      | nil => exact ⟨table, by simpa using hl.symm⟩
      | cons first front =>
        obtain ⟨rfl, -⟩ := List.cons_prefix_cons.mp hfront
        simp [lookup?_cons, hf] at hl
    · rename_i inner hf
      have hcons (path : List String) :
          lookup? (key :: path) (.table table) = lookup? path (.table inner) := by
        rw [lookup?_cons, hf, Option.bind_some]
      have hinner := ih inner
      generalize descend keys inner = result at hinner ⊢
      cases hinner with
      | found h => exact .found (by rw [hcons, h])
      | missing h ht =>
        refine .missing (by rw [hcons, h]) fun front d hfront hl => ?_
        cases front with
        | nil => exact ⟨table, by simpa using hl.symm⟩
        | cons first front =>
          obtain ⟨rfl, hrest⟩ := List.cons_prefix_cons.mp hfront
          exact ht front d hrest (by rwa [hcons] at hl)
      | notATable hfront h hd =>
        exact .notATable (List.cons_prefix_cons.mpr ⟨rfl, hfront⟩) (by rw [hcons, h]) hd
    · rename_i d hnot hf
      have hfirst : lookup? [key] (.table table) = some d := by simp [lookup?_cons, hf]
      refine .notATable (by simp) hfirst ?_
      rintro ⟨inner, rfl⟩
      exact hnot inner rfl

theorem anchor_cases (directory : Path) (entries : List Document) :
    (∃ texts : List String, entries = texts.map .text ∧
      anchor directory entries = .ok (texts.map (anchored directory))) ∨
    (∃ item ∈ entries, (∀ s, item ≠ .text s) ∧ anchor directory entries = .error .notAPath) := by
  induction entries with
  | nil => exact .inl ⟨[], rfl, rfl⟩
  | cons entry entries ih =>
    rw [anchor, List.mapM_cons, ← anchor]
    by_cases he : ∃ s, entry = .text s
    · obtain ⟨s, rfl⟩ := he
      rcases ih with ⟨texts, rfl, ha⟩ | ⟨item, hm, hi, ha⟩ <;> rw [ha]
      · exact .inl ⟨s :: texts, rfl, rfl⟩
      · exact .inr ⟨item, List.mem_cons_of_mem _ hm, hi, rfl⟩
    · refine .inr ⟨entry, List.mem_cons_self, fun s hs => he ⟨s, hs⟩, ?_⟩
      cases entry with
      | text s => exact absurd ⟨s, rfl⟩ he
      | _ => rfl

theorem anchors_anchorSearchPath (directory : Path) (table : Table) :
    Anchors directory table (anchorSearchPath directory table) := by
  rw [anchorSearchPath]
  rcases hf : Fields.find? "search_path" table with _ | d
  · exact .untouched (by simp [hf])
  cases d with
  | text s =>
    exact .anchored hf (.one s)
  | list items =>
    dsimp only
    rcases anchor_cases directory items with ⟨texts, rfl, ha⟩ | ⟨item, hm, hi, ha⟩ <;> rw [ha]
    · exact .anchored hf (.many texts)
    · exact .notAPath hf ⟨items, item, rfl, hm, hi⟩
  | _ =>
    refine .untouched fun d hd => ?_
    cases hf.symm.trans hd
    refine ⟨?_, fun _ hs => nomatch hs⟩
    rintro ⟨_, _, hl, -⟩
    cases hl

theorem Anchors.lookup?_eq {key : String} {base : Table} (h : Anchors directory table (.ok base))
    (hk : key ≠ "search_path") (path : List String) :
    lookup? (key :: path) (.table base) = lookup? (key :: path) (.table table) := by
  generalize hresult : Except.ok base = result at h
  cases h with
  | untouched => rw [Except.ok.inj hresult]
  | anchored =>
    rw [Except.ok.inj hresult, lookup?_cons, lookup?_cons, Fields.find?_put, if_neg hk.symm]
  | notAPath => cases hresult

theorem Spells.not_isTable {d : Document} {texts : List String} (h : Spells d texts) :
    ¬ d.IsTable := by
  rintro ⟨entries, rfl⟩
  cases h

/-- Below the top no table is touched. -/
theorem Anchors.lookup?_table_iff {base inner : Table} {path : List String}
    (h : Anchors directory table (.ok base)) (hne : path ≠ []) :
    lookup? path (.table base) = some (.table inner) ↔
      lookup? path (.table table) = some (.table inner) := by
  obtain ⟨key, path, rfl⟩ := List.exists_cons_of_ne_nil hne
  by_cases hk : key = "search_path"
  case neg => rw [h.lookup?_eq hk]
  subst hk
  generalize hresult : Except.ok base = result at h
  cases h with
  | untouched => rw [Except.ok.inj hresult]
  | anchored hf hs =>
    have hother {d : Document} (hd : ¬ d.IsTable) : lookup? path d ≠ some (.table inner) := by
      intro hl
      exact hd (isTable_of_leads_on path.nil_prefix hl (lookup?_nil d))
    rw [Except.ok.inj hresult, lookup?_cons, lookup?_cons, Fields.find?_put, if_pos rfl, hf,
      Option.bind_some, Option.bind_some]
    exact iff_of_false (hother (by rintro ⟨_, ht⟩; cases ht)) (hother hs.not_isTable)
  | notAPath => cases hresult

/-- A file that parses gives its table with anchored directories, unless the way to the table
is obstructed. -/
theorem readFile_cases (hp : parseFile host tree p = .ok whole) :
    (Obstructed p whole ∧ readFile host tree p = .error .notATable) ∨
    (¬ Obstructed p whole ∧ ∃ table, Owns p whole table ∧
      Anchors p.parent table (readFile host tree p)) := by
  rw [readFile, hp]
  by_cases hname : p.name = projectFileName
  · have hdescend := descends_descend projectKeys whole
    simp only [hname, if_true, bind, Except.bind]
    generalize descend projectKeys whole = result at hdescend
    cases hdescend with
    | found h =>
      refine .inr ⟨?_, _, ?_, anchors_anchorSearchPath _ _⟩
      · rintro ⟨-, front, d, hf, hl, hd⟩
        exact hd (isTable_of_leads_on hf h hl)
      · exact (if_pos hname).mpr (.inl h)
    | missing h ht =>
      refine .inr ⟨?_, [], ?_, anchors_anchorSearchPath _ _⟩
      · rintro ⟨-, front, d, hf, hl, hd⟩
        exact hd (ht front d hf hl)
      · exact (if_pos hname).mpr (.inr ⟨h, rfl⟩)
    | notATable hf hl hd => exact .inl ⟨⟨hname, _, _, hf, hl, hd⟩, rfl⟩
  · refine .inr ⟨fun h => hname h.1, whole, (if_neg hname).mpr rfl, ?_⟩
    simp only [hname, if_false, bind, Except.bind]
    exact anchors_anchorSearchPath _ _

/-! ### The stages of a load -/

/-- The table of a settings file, which is empty where no file is given. -/
def fileTable (host : Host) (tree : FileTree) : Option Path → Except LoadFailure Table
  | none => .ok []
  | some p => readFile host tree p

theorem load_eq_bind (host : Host) (validate : Validator) (tree : FileTree) (path : Option Path)
    (environment : Environment) :
    load host validate tree path (some environment) =
      (fileTable host tree path).bind fun base =>
        ((readEnvironment host.listLevels variablePrefix (Fields.ofList environment)).mapError
            fun failure => if failure = .tooDeep then .tooDeep else .unusable).bind fun override =>
          (mergeOn host base override).bind fun table => (validate table).mapError .invalid := by
  cases path <;> rfl

theorem load_of_readEnvironment {environment : Environment} {override : Table}
    (h : readEnvironment host.listLevels variablePrefix (Fields.ofList environment) = .ok override)
    (validate : Validator) (tree : FileTree) (path : Option Path) :
    load host validate tree path (some environment) =
      (fileTable host tree path).bind fun base =>
        (mergeOn host base override).bind fun table => (validate table).mapError .invalid := by
  rw [load_eq_bind, h]
  rfl

end Mustache.Config
