import Mustache.Proofs.Config.Inference
import Mustache.Proofs.Config.Reading
import Mustache.Proofs.Value.Binding

/-! The order of environment variables. Tables are compared by what is found at each path, so
that the order of their keys does not count. While no path of a variable leads on from that of
another, what an environment sets is told path by path, by its variables alone; a permutation
of them therefore comes to a table that holds the same, and the same settings are loaded, or the
same issues reported, by any package that checks each setting by itself. The text of such a
report is left out: it may quote a table as it stands. -/

namespace Mustache.Config

open Data Files

/-- What is found at the same path of two documents that hold the same: nothing, a table each,
or one value. -/
inductive Alike : Option Document → Option Document → Prop
  | nothing : Alike none none
  | tables (s t : Table) : Alike (some (.table s)) (some (.table t))
  | value (d : Document) : Alike (some d) (some d)

/-- Two tables in which the same is found at each path. -/
def HoldsSame (s t : Table) : Prop :=
  ∀ p, Alike (lookup? p (.table s)) (lookup? p (.table t))

/-- What the settings of some variables come to, path by path. -/
structure Records (levels : Nat) (settings : List (List String × String)) (table : Table) :
    Prop where
  wellKeyed : WellKeyed (.table table)
  value : ∀ v ∈ settings, ∃ d, inferValue levels v.2 = .ok d ∧
    lookup? v.1 (.table table) = some d
  nothingElse : ∀ p d, p ≠ [] → lookup? p (.table table) = some d →
    (∃ v ∈ settings, v.1 = p ∧ inferValue levels v.2 = .ok d) ∨
      d.IsTable ∧ ∃ v ∈ settings, p <+: v.1 ∧ p ≠ v.1

/-- A failure without the text of a report. -/
def LoadFailure.withoutText : LoadFailure → LoadFailure
  | .invalid rejection => .invalid { rejection with text := "" }
  | failure => failure

variable {host : Host} {levels : Nat} {validate : Validator} {checks : Checks}
  {s t table : Table} {p : List String} {d : Document} {environment reordered : Environment}
  {settings settings' : List (List String × String)} {values : List (List String × Document)}

/-! ### Tables that hold the same -/

theorem Alike.refl (found : Option Document) : Alike found found := by
  cases found with
  | none => exact .nothing
  | some d => exact .value d

theorem HoldsSame.inner {key : String} (h : HoldsSame s t) {s' t' : Table}
    (hs : Fields.find? key s = some (.table s')) (ht : Fields.find? key t = some (.table t')) :
    HoldsSame s' t' := by
  intro p
  simpa [lookup?_cons, hs, ht] using h (key :: p)

theorem HoldsSame.find? (h : HoldsSame s t) (key : String) :
    Alike (Fields.find? key s) (Fields.find? key t) := by
  simpa [lookup?_single] using h [key]

/-- What overrides a table may be replaced by what holds the same. -/
theorem HoldsSame.merge (h : HoldsSame s t) (hs : WellKeyed (.table s))
    (ht : WellKeyed (.table t)) (base : Table) : HoldsSame (merge base s) (merge base t) := by
  intro p
  induction p generalizing base s t with
  | nil =>
    rw [lookup?_nil, lookup?_nil]
    exact .tables _ _
  | cons key path ih =>
    obtain ⟨hns, hins⟩ := wellKeyed_table.mp hs
    obtain ⟨hnt, hint⟩ := wellKeyed_table.mp ht
    rw [lookup?_cons, lookup?_cons, find?_merge hns, find?_merge hnt]
    have hkey := h.find? key
    generalize hfs : Fields.find? key s = found at hkey ⊢
    generalize hft : Fields.find? key t = found' at hkey ⊢
    cases hkey with
    | nothing => exact .refl _
    | value d => exact .refl _
    | tables s' t' =>
      have hinner : HoldsSame s' t' := h.inner hfs hft
      by_cases hb : ∃ b, Fields.find? key base = some (.table b)
      · obtain ⟨b, hb⟩ := hb
        simp only [hb, mergeValue_table, Option.bind_some]
        exact ih hinner (hins key _ hfs) (hint key _ hft) b
      · have hbase : ∀ b ∈ Fields.find? key base, ¬ b.IsTable := by
          rintro b hbm ⟨entries, rfl⟩
          exact hb ⟨entries, hbm⟩
        simp only [mergeValue_of_base_not_isTable hbase, Option.bind_some]
        exact hinner path

/-- As many tables within each other are merged. -/
theorem HoldsSame.overlap_eq (h : HoldsSame s t) (hs : WellKeyed (.table s))
    (ht : WellKeyed (.table t)) (base : Table) : overlap base s = overlap base t := by
  have htable (path : List String) : (∃ entries, lookup? path (.table s) = some (.table entries)) ↔
      ∃ entries, lookup? path (.table t) = some (.table entries) := by
    have hpath := h path
    generalize lookup? path (.table s) = found, lookup? path (.table t) = found' at hpath ⊢
    cases hpath with
    | nothing => exact Iff.rfl
    | value d => exact Iff.rfl
    | tables s' t' => exact iff_of_true ⟨s', rfl⟩ ⟨t', rfl⟩
  refine eq_of_forall_lt_iff fun n => ?_
  simp only [lt_overlap_iff hs, lt_overlap_iff ht, exists_and_left, htable]

/-- A check that cannot tell tables which hold the same cannot tell under which it is made. -/
theorem HoldsSame.checkField_eq {α : Type} (h : HoldsSame s t) {check : Document → Checked α}
    (hcheck : ∀ s t : Table, HoldsSame s t → check (.table s) = check (.table t)) (key : String)
    (default : α) : checkField key s default check = checkField key t default check := by
  have hkey := h.find? key
  unfold checkField
  generalize hfs : Fields.find? key s = found at hkey ⊢
  generalize hft : Fields.find? key t = found' at hkey ⊢
  cases hkey with
  | nothing => rfl
  | value d => rfl
  | tables s' t' => simp only [hcheck s' t' (h.inner hfs hft)]

/-- What is checked of a table is told by what is found in it. -/
theorem HoldsSame.table_eq (h : HoldsSame s t) (hc : checks.Lawful) :
    checks.table s = checks.table t := by
  have hpaths (s t : Table) (_ : HoldsSame s t) : (checks.paths ∘ coerceSearchPath) (.table s) =
      (checks.paths ∘ coerceSearchPath) (.table t) :=
    (hc.notAList (.table s) nofun).trans (hc.notAList (.table t) nofun).symm
  have htext (s t : Table) (_ : HoldsSame s t) : checks.text (.table s) = checks.text (.table t) :=
    (hc.notAText (.table s) nofun).trans (hc.notAText (.table t) nofun).symm
  have hpositive (limit : Option Nat) (s t : Table) (_ : HoldsSame s t) :
      checks.positive limit (.table s) = checks.positive limit (.table t) :=
    (hc.positive limit s).trans (hc.positive limit t).symm
  have hlogging (s t : Table) (h : HoldsSame s t) :
      checks.logging (.table s) = checks.logging (.table t) := by
    rw [Checks.logging, Checks.logging, Checks.loggingTable, Checks.loggingTable,
      h.checkField_eq fun s t _ => (hc.level s).trans (hc.level t).symm,
      h.checkField_eq fun s t _ => (hc.format s).trans (hc.format t).symm, h.checkField_eq htext]
  simp only [Checks.table, h.checkField_eq hpaths, h.checkField_eq htext,
    h.checkField_eq (hpositive _), h.checkField_eq hlogging]

/-! ### What an environment sets -/

theorem settingsAmong_put_of_not {name : String} (h : holdsSetting name = false) (text : String)
    (fields : Environment) :
    settingsAmong (Fields.put name text fields) = settingsAmong fields := by
  induction fields with
  | nil => simp [Fields.put, settingsAmong, h]
  | cons field rest ih =>
    simp only [settingsAmong] at ih ⊢
    rw [Fields.put]
    split
    · rename_i hname
      simp [h, hname]
    · rw [List.filter_cons, List.filter_cons]
      split
      · rw [List.map_cons, ih, List.map_cons]
      · exact ih

theorem put_of_notMem {name : String} {fields : Environment} (h : name ∉ Fields.names fields)
    (text : String) : Fields.put name text fields = fields ++ [(name, text)] := by
  induction fields with
  | nil => rfl
  | cons field rest ih =>
    rw [Fields.names, List.map_cons, List.mem_cons, not_or] at h
    obtain ⟨hfield, hrest⟩ := h
    rw [Fields.put, if_neg (Ne.symm hfield), ih hrest]
    rfl

theorem settingsAmong_append (fields more : Environment) :
    settingsAmong (fields ++ more) = settingsAmong fields ++ settingsAmong more := by
  simp [settingsAmong]

/-- Variables with settings that lie apart have different names, so none is set twice. -/
theorem settingsAmong_ofList (h : (settingsAmong environment).Pairwise fun v w => Apart v.1 w.1) :
    settingsAmong (Fields.ofList environment) = settingsAmong environment := by
  induction environment using List.reverseRecOn with
  | nil => rfl
  | append_singleton environment v ih =>
    rw [settingsAmong_append] at h ⊢
    obtain ⟨hfront, -, hlast⟩ := List.pairwise_append.mp h
    rw [Fields.ofList_concat]
    cases hv : holdsSetting v.1 with
    | false =>
      rw [settingsAmong_put_of_not hv, ih hfront]
      simp [settingsAmong, hv]
    | true =>
      have hnew : v.1 ∉ Fields.names (Fields.ofList environment) := by
        rw [Fields.names_ofList, List.mem_eraseDups]
        intro hmem
        obtain ⟨w, hw, hname⟩ := List.mem_map.mp hmem
        have hearlier : (pathOfVariable (w.1.drop variablePrefix.length).toString, w.2) ∈
            settingsAmong environment :=
          List.mem_map_of_mem (List.mem_filter.mpr ⟨hw, hname ▸ hv⟩)
        have hapart := hlast _ hearlier _
          (List.mem_map_of_mem (List.mem_filter.mpr ⟨List.mem_singleton_self v, hv⟩))
        rw [hname] at hapart
        exact hapart.1 (List.prefix_refl _)
      rw [put_of_notMem hnew, settingsAmong_append, ih hfront]

theorem ne_nil_of_mem_settingsAmong {v : List String × String}
    (h : v ∈ settingsAmong environment) : v.1 ≠ [] := by
  obtain ⟨w, -, rfl⟩ := List.mem_map.mp h
  simp [pathOfVariable, pathOfText, List.splitOnP_ne_nil]

/-- A value found in tables that were set at paths is at one of these paths, or leads there. -/
theorem lookup?_setAll_cases (hp : values.Pairwise fun v w => Apart v.1 w.1)
    (hv : ∀ v ∈ values, v.1 ≠ [] ∧ ¬ v.2.IsTable) (hne : p ≠ [])
    (h : lookup? p (.table (setAll values [])) = some d) :
    (p, d) ∈ values ∨ d.IsTable ∧ ∃ v ∈ values, p <+: v.1 ∧ p ≠ v.1 := by
  by_cases hapart : ∀ v ∈ values, Apart v.1 p
  · obtain ⟨key, path, rfl⟩ := List.exists_cons_of_ne_nil hne
    rw [lookup?_setAll_of_apart hapart] at h
    simp [lookup?_cons] at h
  obtain ⟨v, hm, hmeet⟩ : ∃ v ∈ values, ¬ Apart v.1 p := by simpa using hapart
  obtain ⟨hvne, hvt⟩ := hv v hm
  have hfound : lookup? v.1 (.table (setAll values [])) = some v.2 :=
    lookup?_setAll_of_mem hp hm hvne []
  by_cases heq : v.1 = p
  · subst heq
    cases hfound.symm.trans h
    exact .inl hm
  by_cases hvp : v.1 <+: p
  · -- Nothing lies below a value that is no table.
    obtain ⟨rest, rfl⟩ := hvp
    have hrest : rest ≠ [] := by
      rintro rfl
      exact heq (by simp)
    rw [lookup?_append, hfound, Option.bind_some] at h
    exact absurd (isTable_of_lookup? h hrest) hvt
  · obtain ⟨rest, hrest⟩ : p <+: v.1 := by
      by_contra hpv
      exact hmeet ⟨hvp, hpv⟩
    rw [← hrest, lookup?_append, h, Option.bind_some] at hfound
    have hne' : rest ≠ [] := by
      rintro rfl
      exact heq (by simpa using hrest.symm)
    exact .inr ⟨isTable_of_lookup? hfound hne', v, hm, ⟨rest, hrest⟩, Ne.symm heq⟩

/-- Variables whose settings lie apart are read, while no list among them is beyond its reader. -/
theorem exists_records (hp : (settingsAmong environment).Pairwise fun v w => Apart v.1 w.1)
    (hv : ∀ v ∈ settingsAmong environment, WithinReach levels v.2) :
    ∃ table, readEnvironment levels variablePrefix (Fields.ofList environment) = .ok table ∧
      Records levels (settingsAmong environment) table := by
  rw [readEnvironment_eq, settingVariables, settingsAmong_ofList hp]
  have hkeys : ∀ v ∈ settingsAmong environment, v.1 ≠ [] := fun v => ne_nil_of_mem_settingsAmong
  have hread : ∀ v ∈ settingsAmong environment, ∃ d, inferValue levels v.2 = .ok d :=
    fun v hm => exists_inferValue (hv v hm)
  generalize settingsAmong environment = settings at hp hkeys hread
  choose! value hvalue using hread
  have hread : settings.mapM (readVariable levels) =
      .ok (settings.map fun v => (v.1, value v)) := by
    rw [mapM_eq_ok_iff, List.forall₂_map_right_iff, List.forall₂_same]
    intro v hm
    rw [readVariable, hvalue v hm]
    rfl
  have hapart : (settings.map fun v => (v.1, value v)).Pairwise fun v w => Apart v.1 w.1 :=
    List.pairwise_map.mpr hp
  have hplain : ∀ v ∈ settings.map fun v => (v.1, value v), v.1 ≠ [] ∧ ¬ v.2.IsTable := by
    intro w hw
    obtain ⟨v, hm, rfl⟩ := List.mem_map.mp hw
    exact ⟨hkeys v hm, not_isTable_of_inferValue (hvalue v hm)⟩
  refine ⟨_, by rw [hread]; rfl, wellKeyed_setAll (fun w hw => (hplain w hw).2) wellKeyed_nil,
    fun v hm => ⟨value v, hvalue v hm, ?_⟩, fun p d hne h => ?_⟩
  · exact lookup?_setAll_of_mem hapart (List.mem_map_of_mem hm) (hkeys v hm) []
  · rcases lookup?_setAll_cases hapart hplain hne h with hm | ⟨hd, w, hw, hpw, hpne⟩
    · obtain ⟨v, hsetting, hpd⟩ := List.mem_map.mp hm
      cases hpd
      exact .inl ⟨v, hsetting, rfl, hvalue v hsetting⟩
    · obtain ⟨v, hm, rfl⟩ := List.mem_map.mp hw
      exact .inr ⟨hd, v, hm, hpw, hpne⟩

/-- What one table holds, any other does that records the same settings. -/
theorem Records.holds (hs : Records levels settings s) (ht : Records levels settings' t)
    (hperm : settings.Perm settings') (hne : p ≠ []) (h : lookup? p (.table s) = some d) :
    ∃ d', lookup? p (.table t) = some d' ∧ (d = d' ∨ d.IsTable ∧ d'.IsTable) := by
  rcases hs.nothingElse p d hne h with ⟨v, hv, rfl, hd⟩ | ⟨hd, v, hv, ⟨rest, hrest⟩, hpne⟩
  · obtain ⟨d', hd', hfound⟩ := ht.value v (hperm.mem_iff.mp hv)
    cases hd.symm.trans hd'
    exact ⟨d, hfound, .inl rfl⟩
  · obtain ⟨value, -, hfound⟩ := ht.value v (hperm.mem_iff.mp hv)
    rw [← hrest, lookup?_append] at hfound
    obtain ⟨d', hd', hbelow⟩ := Option.bind_eq_some_iff.mp hfound
    have hne' : rest ≠ [] := by
      rintro rfl
      exact hpne (by simpa using hrest)
    exact ⟨d', hd', .inr ⟨hd, isTable_of_lookup? hbelow hne'⟩⟩

theorem Records.holdsSame (hs : Records levels settings s) (ht : Records levels settings' t)
    (hperm : settings.Perm settings') : HoldsSame s t := by
  intro p
  by_cases hne : p = []
  · subst hne
    rw [lookup?_nil, lookup?_nil]
    exact .tables s t
  rcases hfs : lookup? p (.table s) with _ | d
  · rcases hft : lookup? p (.table t) with _ | d'
    · exact .nothing
    · obtain ⟨d, hd, -⟩ := ht.holds hs hperm.symm hne hft
      cases hfs.symm.trans hd
  · obtain ⟨d', hft, rfl | ⟨⟨s', rfl⟩, t', rfl⟩⟩ := hs.holds ht hperm hne hfs
    · rw [hft]
      exact .value d
    · rw [hft]
      exact .tables s' t'

theorem mapError_withoutText_congr {x y : Except Rejection Settings}
    (h : x.mapError Rejection.issues = y.mapError Rejection.issues) :
    (x.mapError LoadFailure.invalid).mapError LoadFailure.withoutText =
      (y.mapError LoadFailure.invalid).mapError LoadFailure.withoutText := by
  rcases x with rejection | settings <;> rcases y with rejection' | settings'
  · have hissues : rejection.issues = rejection'.issues := Except.error.inj h
    exact congrArg (fun issues => Except.error (LoadFailure.invalid ⟨issues, ""⟩)) hissues
  · cases h
  · cases h
  · cases h
    rfl

theorem load_congr
    (hs : readEnvironment host.listLevels variablePrefix (Fields.ofList environment) = .ok s)
    (ht : readEnvironment host.listLevels variablePrefix (Fields.ofList reordered) = .ok t)
    (h : HoldsSame s t) (hg : validate.GoesBy checks) (hc : checks.Lawful) (tree : FileTree)
    (path : Option Path) :
    (load host validate tree path (some environment)).mapError LoadFailure.withoutText =
      (load host validate tree path (some reordered)).mapError LoadFailure.withoutText := by
  have hws := wellKeyed_environment hs
  have hwt := wellKeyed_environment ht
  rw [load_of_readEnvironment hs, load_of_readEnvironment ht]
  rcases fileTable host tree path with failure | base
  · rfl
  have hvalid : (validate (merge base s)).mapError Rejection.issues =
      (validate (merge base t)).mapError Rejection.issues := by
    rw [hg, hg, (h.merge hws hwt base).table_eq hc]
  rw [Except.bind, Except.bind, mergeOn, mergeOn, h.overlap_eq hws hwt base]
  split
  · rfl
  · exact mapError_withoutText_congr hvalid

/-- Variables whose settings lie apart set what they hold, each at its path, and nothing else,
while no list among them is beyond its reader; in whichever order they come, the table holds
the same, and the same settings are loaded or the same issues reported. -/
theorem readEnvironment_reordered
    (hp : (settingsAmong environment).Pairwise fun v w => Apart v.1 w.1)
    (hv : ∀ v ∈ settingsAmong environment, WithinReach host.listLevels v.2) :
    ∃ table, readEnvironment host.listLevels variablePrefix (Fields.ofList environment) =
        .ok table ∧
      Records host.listLevels (settingsAmong environment) table ∧
      ∀ reordered : Environment, reordered.Perm environment →
        (∃ table', readEnvironment host.listLevels variablePrefix (Fields.ofList reordered) =
          .ok table' ∧ HoldsSame table table') ∧
        ∀ (validate : Validator) (checks : Checks), validate.GoesBy checks → checks.Lawful →
          ∀ tree path,
            (load host validate tree path (some reordered)).mapError LoadFailure.withoutText =
              (load host validate tree path (some environment)).mapError
                LoadFailure.withoutText := by
  obtain ⟨table, hread, hrecords⟩ := exists_records hp hv
  refine ⟨table, hread, hrecords, fun reordered hperm => ?_⟩
  have hsettings : (settingsAmong reordered).Perm (settingsAmong environment) :=
    (hperm.filter _).map _
  have hp' : (settingsAmong reordered).Pairwise fun v w => Apart v.1 w.1 :=
    (hsettings.pairwise_iff fun h => h.symm).mpr hp
  obtain ⟨table', hread', hrecords'⟩ :=
    exists_records hp' fun v hm => hv v (hsettings.mem_iff.mp hm)
  have hsame : HoldsSame table table' := hrecords.holdsSame hrecords' hsettings.symm
  exact ⟨⟨table', hread', hsame⟩, fun validate checks hg hc tree path =>
    (load_congr hread hread' hsame hg hc tree path).symm⟩

/-- A list with an integer that is too long is not taken as a text: nothing is read at all. -/
theorem readEnvironment_tooLong :
    (settingsAmong [("STACHE_X", listOfOnes 4301)]).Pairwise (fun v w => Apart v.1 w.1) ∧
      readEnvironment Host.usual.listLevels variablePrefix
          (Fields.ofList [("STACHE_X", listOfOnes 4301)]) =
        .error .outOfRange := by
  have hsettings : settingsAmong [("STACHE_X", listOfOnes 4301)] = [(["x"], listOfOnes 4301)] := by
    rw [settingsAmong, List.filter_cons_of_pos (by decide +kernel), List.filter_nil,
      List.map_singleton, show pathOfVariable ("STACHE_X".drop variablePrefix.length).toString =
        ["x"] by decide +kernel]
  have hp : (settingsAmong [("STACHE_X", listOfOnes 4301)]).Pairwise
      fun v w => Apart v.1 w.1 := by simp [hsettings]
  refine ⟨hp, ?_⟩
  rw [readEnvironment_eq, settingVariables, settingsAmong_ofList hp, hsettings, List.mapM_cons,
    readVariable, show Host.usual.listLevels = 984 + 1 from rfl, inferValue_listOfOnes (by decide)]
  rfl

/-- Variables of two tables, with one that is no setting between them. -/
def apartEnvironment : Environment :=
  [("STACHE_LOGGING__LEVEL", "debug"), ("HOME", "/"), ("STACHE_EXTENSION", ".txt")]

theorem readEnvironment_reordered_apart :
    (settingsAmong apartEnvironment).Pairwise (fun v w => Apart v.1 w.1) ∧
      (∀ v ∈ settingsAmong apartEnvironment, WithinReach Host.usual.listLevels v.2) ∧
      ∃ table, readEnvironment Host.usual.listLevels variablePrefix
          (Fields.ofList apartEnvironment) = .ok table ∧
        Records Host.usual.listLevels (settingsAmong apartEnvironment) table ∧
        ∀ tree path,
          (load .usual Config.validate tree path (some apartEnvironment.reverse)).mapError
              LoadFailure.withoutText =
            (load .usual Config.validate tree path (some apartEnvironment)).mapError
              LoadFailure.withoutText := by
  have hsettings : settingsAmong apartEnvironment =
      [(["logging", "level"], "debug"), (["extension"], ".txt")] := by
    decide +kernel
  have hp : (settingsAmong apartEnvironment).Pairwise fun v w => Apart v.1 w.1 := by
    simp [hsettings, Apart]
  have hv : ∀ v ∈ settingsAmong apartEnvironment, WithinReach Host.usual.listLevels v.2 := by
    rw [hsettings]
    rintro v hm ⟨hstart, -⟩
    rcases List.mem_pair.mp hm with rfl | rfl <;> simp at hstart
  obtain ⟨table, hread, hrecords, horder⟩ := @readEnvironment_reordered .usual _ hp hv
  exact ⟨hp, hv, table, hread, hrecords,
    (horder _ (List.reverse_perm _)).2 Config.validate .usual goesBy_validate lawful_usual⟩

end Mustache.Config
