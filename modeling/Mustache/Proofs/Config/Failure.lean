import Mathlib
import Mustache.Packages.Usual
import Mustache.Proofs.Config.Reading
import Mustache.Proofs.Config.Variables

/-! How a load of settings fails. A settings file that parses may still hold what no check has
seen when it is used: something else than a table on the way to the settings of a project file,
or something else than a text in a search path; a variable may hold a list that is beyond the
reader of lists; and the tables of the file and of the variables may stand within each other
deeper than the host can merge them. These end a load, and a command, without being reported.
Main result: there is nothing else that does; all other settings are loaded or reported as
invalid, whatever the package that checks them makes of them. -/

namespace Mustache.Config

open Data Files CommandLine

/-- What ends a load without being reported, and how it is told. -/
inductive Crashes (host : Host) (p : Path) (whole : Table) (environment : Environment) :
    LoadFailure → Prop
  | notATable (h : Obstructed p whole) : Crashes host p whole environment .notATable
  | notAPath {table d} (ho : Owns p whole table) (hs : Fields.find? "search_path" table = some d)
      (hd : HoldsNonText d) : Crashes host p whole environment .notAPath
  | unread {path text failure} (hv : (path, text) ∈ settingVariables environment)
      (hf : inferValue host.listLevels text = .error failure) :
      Crashes host p whole environment (if failure = .tooDeep then .tooDeep else .unusable)
  | tooDeep {table override path inner entries} (ho : Owns p whole table)
      (he : readEnvironment host.listLevels variablePrefix (Fields.ofList environment) =
        .ok override)
      (hl : host.tableLevels < path.length)
      (hf : lookup? path (.table table) = some (.table inner))
      (hv : lookup? path (.table override) = some (.table entries)) :
      Crashes host p whole environment .tooDeep

variable {host : Host} {packages : Packages} {tree : FileTree} {p : Path}
  {whole table override : Table} {environment : Environment} {failure : LoadFailure}

theorem Crashes.settingsFailure (h : Crashes host p whole environment failure) :
    settingsFailure failure = .error (.settings failure) := by
  cases h with
  | notATable | notAPath | tooDeep => rfl
  | unread => split <;> rfl

theorem readEnvironment_error {failure : ReadFailure}
    (h : readEnvironment host.listLevels variablePrefix (Fields.ofList environment) =
      .error failure) :
    ∃ v ∈ settingVariables environment, inferValue host.listLevels v.2 = .error failure := by
  rw [readEnvironment_eq] at h
  rcases hm : (settingVariables environment).mapM (readVariable host.listLevels) with e | values
  all_goals
    rw [hm] at h
    cases h
  obtain ⟨v, hv, he⟩ := exists_of_mapM_eq_error hm
  refine ⟨v, hv, ?_⟩
  rcases hi : inferValue host.listLevels v.2 with e | d <;> rw [readVariable, hi] at he <;> cases he
  rfl

/-- What is read and merged decides whether anything crashes. -/
theorem not_crashes {read merged : Table} (hp : parseFile host tree p = .ok whole)
    (hr : readFile host tree p = .ok read)
    (he : readEnvironment host.listLevels variablePrefix (Fields.ofList environment) = .ok override)
    (hm : mergeOn host read override = .ok merged) :
    ¬ Crashes host p whole environment failure := by
  intro h
  rcases readFile_cases hp with ⟨-, herror⟩ | ⟨hclear, table, howns, hanchors⟩
  · cases herror.symm.trans hr
  rw [hr] at hanchors
  cases h with
  | notATable h => exact hclear h
  | notAPath ho hs hd =>
    obtain rfl := howns.unique ho
    generalize hresult : Except.ok read = result at hanchors
    cases hanchors with
    | untouched h => exact (h _ hs).1 hd
    | anchored h hspells =>
      cases h.symm.trans hs
      exact hspells.not_holdsNonText hd
    | notAPath => cases hresult
  | unread hv hf =>
    obtain ⟨values, -, -, -, hread⟩ := exists_values he
    obtain ⟨d, hd, -⟩ := hread _ hv
    cases hf.symm.trans hd
  | @tooDeep _ _ path inner entries ho he' hl hf hv =>
    obtain rfl := howns.unique ho
    cases he.symm.trans he'
    have hne : path ≠ [] := List.ne_nil_of_length_pos (Nat.zero_lt_of_lt hl)
    have hdeep : host.tableLevels < overlap read override :=
      (lt_overlap_iff (wellKeyed_environment he)).mpr
        ⟨path, inner, entries, hl, (hanchors.lookup?_table_iff hne).mpr hf, hv⟩
    rw [mergeOn, if_pos hdeep] at hm
    cases hm

theorem withEngine_of_load_error {i : Invocation}
    (h : load host packages.validate tree i.config (some environment) = .error failure)
    (action : Engine → Option Log.Journal → Except Abort Output) :
    i.withEngine host packages tree environment action = settingsFailure failure := by
  rw [Invocation.withEngine, Invocation.settings, h]
  rfl

/-- Settings from a file that parses are loaded or reported as invalid, unless something
crashes. A command that uses them then complains, with the exit code for it, or crashes. -/
theorem load_cases (packages : Packages) (hp : parseFile host tree p = .ok whole)
    (environment : Environment) :
    ((∀ failure, ¬ Crashes host p whole environment failure) ∧
      ((∃ settings, load host packages.validate tree (some p) (some environment) = .ok settings) ∨
        ∃ rejection, load host packages.validate tree (some p) (some environment) =
            .error (.invalid rejection) ∧
          ∀ (i : Invocation) action, i.config = some p →
            i.withEngine host packages tree environment action = .ok (complain .loadError
              (LoadFailure.invalid rejection).headline (LoadFailure.invalid rejection).detail))) ∨
    ∃ failure, Crashes host p whole environment failure ∧
      load host packages.validate tree (some p) (some environment) = .error failure ∧
      ∀ (i : Invocation) action, i.config = some p →
        i.withEngine host packages tree environment action = .error (.settings failure) := by
  have hcrash {cause : LoadFailure} (hc : Crashes host p whole environment cause)
      (hload : load host packages.validate tree (some p) (some environment) = .error cause) :
      ∃ cause, Crashes host p whole environment cause ∧
        load host packages.validate tree (some p) (some environment) = .error cause ∧
        ∀ (i : Invocation) action, i.config = some p →
          i.withEngine host packages tree environment action = .error (.settings cause) :=
    ⟨cause, hc, hload, fun i action hi =>
      (withEngine_of_load_error (by rw [hi, hload]) action).trans hc.settingsFailure⟩
  rcases hr : readFile host tree p with cause | base
  · have hload : load host packages.validate tree (some p) (some environment) = .error cause := by
      simp only [load_eq_bind, fileTable, hr, Except.bind]
    rcases readFile_cases hp with ⟨hobstructed, herror⟩ | ⟨-, table, howns, hanchors⟩
    · cases hr.symm.trans herror
      exact .inr (hcrash (.notATable hobstructed) hload)
    · rw [hr] at hanchors
      cases hanchors with
      | notAPath h hd => exact .inr (hcrash (.notAPath howns h hd) hload)
  rcases he : readEnvironment host.listLevels variablePrefix (Fields.ofList environment) with
    cause | override
  · obtain ⟨v, hv, hcause⟩ := readEnvironment_error he
    refine .inr (hcrash (.unread hv hcause) ?_)
    simp only [load_eq_bind, fileTable, hr, he, Except.bind, Except.mapError]
  rcases hm : mergeOn host base override with cause | merged
  · obtain ⟨hdeep, hcause⟩ : host.tableLevels < overlap base override ∧ .tooDeep = cause := by
      rw [mergeOn] at hm
      split at hm
      · exact ⟨‹_›, Except.error.inj hm⟩
      · cases hm
    subst hcause
    obtain ⟨path, inner, entries, hl, hf, hv⟩ :=
      (lt_overlap_iff (wellKeyed_environment he)).mp hdeep
    have hne : path ≠ [] := List.ne_nil_of_length_pos (Nat.zero_lt_of_lt hl)
    rcases readFile_cases hp with ⟨-, herror⟩ | ⟨-, table, howns, hanchors⟩
    · cases hr.symm.trans herror
    rw [hr] at hanchors
    refine .inr (hcrash (.tooDeep howns he hl ((hanchors.lookup?_table_iff hne).mp hf) hv) ?_)
    simp only [load_of_readEnvironment he, fileTable, hr, hm, Except.bind]
  refine .inl ⟨fun cause => not_crashes hp hr he hm, ?_⟩
  have hload : load host packages.validate tree (some p) (some environment) =
      (packages.validate merged).mapError .invalid := by
    simp only [load_of_readEnvironment he, fileTable, hr, hm, Except.bind]
  rcases hv : packages.validate merged with rejection | settings <;> rw [hv] at hload
  · exact .inr ⟨rejection, hload, fun i action hi =>
      withEngine_of_load_error (by rw [hi, hload]; rfl) action⟩
  · exact .inl ⟨settings, hload⟩

def singleFile (name text : String) : FileTree where
  entries := [([name], .file text.toUTF8.toList)]
  workingDirectory := []

theorem parseFile_listOfTables :
    parseFile .usual (singleFile "stache.toml" "[[search_path]]") (Path.ofText "stache.toml") =
      .ok [("search_path", .list [.table []])] := by
  cbv

theorem load_listOfTables :
    load .usual Packages.usual.validate (singleFile "stache.toml" "[[search_path]]")
      (some (Path.ofText "stache.toml")) (some []) = .error .notAPath := by
  rw [load]
  simp only [readFile, parseFile_listOfTables]
  cbv

theorem load_cases_listOfTables :
    parseFile .usual (singleFile "stache.toml" "[[search_path]]") (Path.ofText "stache.toml") =
        .ok [("search_path", .list [.table []])] ∧
      Crashes .usual (Path.ofText "stache.toml") [("search_path", .list [.table []])] []
        .notAPath := by
  refine ⟨parseFile_listOfTables, ?_⟩
  rcases load_cases .usual parseFile_listOfTables [] with
    ⟨-, ⟨settings, h⟩ | ⟨rejection, h, -⟩⟩ | ⟨failure, hc, h, -⟩ <;>
    cases load_listOfTables.symm.trans h
  exact hc

/-- The header of a list of tables also makes a project file crash a command. -/
theorem load_listOfTools :
    load .usual Packages.usual.validate (singleFile "pyproject.toml" "[[tool]]")
      (some (Path.ofText "pyproject.toml")) (some []) = .error .notATable := by
  cbv

/-- Commands crash on files that parse instead of complaining about them. -/
theorem run_crashes :
    CommandLine.run .usual .usual (singleFile "stache.toml" "[[search_path]]") []
        ["check", "--config", "stache.toml"] = .error (.settings .notAPath) ∧
      CommandLine.run .usual .usual (singleFile "pyproject.toml" "[[tool]]") []
        ["check", "--config", "pyproject.toml"] = .error (.settings .notATable) := by
  have hrun {tree : FileTree} {file : String}
      (h : Packages.usual.arguments ["check", "--config", file] =
        some (.run ⟨.check [], some (Path.ofText file), [], none⟩)) :
      CommandLine.run .usual .usual tree [] ["check", "--config", file] =
        Invocation.withEngine ⟨.check [], some (Path.ofText file), [], none⟩ .usual .usual tree []
          fun engine journal => check journal engine .success "" [] := by
    rw [CommandLine.run, h]
    rfl
  rw [hrun (by decide +kernel), hrun (by decide +kernel),
    withEngine_of_load_error load_listOfTables, withEngine_of_load_error load_listOfTools]
  exact ⟨rfl, rfl⟩

end Mustache.Config
