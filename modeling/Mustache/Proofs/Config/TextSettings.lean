import Mustache.Packages.Usual
import Mustache.Proofs.Config.Inference
import Mustache.Proofs.Config.Reordering
import Mustache.Proofs.Config.Validation

/-! Settings that are texts, set by a variable alone. A variable is read before it is known
which setting it is for, so that a text that is taken for a truth value, an integer or a list
is no text when it comes to be checked. Main result: all other texts become the setting as they
are, and these are reported as no text, by any package that checks each setting by itself and
takes texts, and nothing else, for what is declared to be one. -/

namespace Mustache.Config

open Data Files CommandLine

/-- The settings that are texts. -/
inductive TextSetting
  | extension | encoding | logFile
deriving DecidableEq, Repr

namespace TextSetting

/-- The variable that holds the setting. -/
def name : TextSetting → String
  | extension => "STACHE_EXTENSION"
  | encoding => "STACHE_ENCODING"
  | logFile => "STACHE_LOGGING__FILE"

def path : TextSetting → List String
  | extension => ["extension"]
  | encoding => ["encoding"]
  | logFile => ["logging", "file"]

def alone (v : String) : TextSetting → Settings
  | extension => { extension := v }
  | encoding => { encoding := v }
  | logFile => { logging := { file := v } }

end TextSetting

variable {host : Host} {validate : Validator} {checks : Checks} {environment : Environment}
  {v : String} {d : Document}

theorem pathOfVariable_name (setting : TextSetting) :
    pathOfVariable (setting.name.drop variablePrefix.length).toString = setting.path := by
  cases setting <;> decide +kernel

theorem merge_nil_setPath (setting : TextSetting) (d : Document) :
    merge [] (setPath setting.path d []) = setPath setting.path d [] := by
  cases setting <;> cases d <;> rfl

theorem checkField_single {α : Type} (key other : String) (d : Document) (default : α)
    (check : Document → Checked α) :
    checkField key [(other, d)] default check =
      if other = key then (check d).mapError (List.map (Issue.under key)) else .ok default := by
  rw [checkField, Fields.find?_cons]
  by_cases h : other = key <;> simp [h]

theorem table_setPath_of_ok (setting : TextSetting) (h : checks.text d = .ok v) :
    checks.table (setPath setting.path d []) = .ok (setting.alone v) := by
  cases setting <;>
    simp [TextSetting.path, TextSetting.alone, setPath, tableAt, Fields.put, Checks.table,
      checkField_single, Checks.logging, Checks.loggingTable, both, Except.mapError, h]

theorem table_setPath_of_error (setting : TextSetting) {issues : List Issue}
    (h : checks.text d = .error issues) :
    checks.table (setPath setting.path d []) =
      .error (issues.map fun issue => ⟨setting.path ++ issue.place, issue.kind⟩) := by
  cases setting <;>
    simp [TextSetting.path, setPath, tableAt, Fields.put, Checks.table, checkField_single,
      Checks.logging, Checks.loggingTable, both, Except.mapError, Issue.under, h]

theorem load_setting (setting : TextSetting)
    (h : environment.filter (fun w => holdsSetting w.1) = [(setting.name, v)])
    (hd : inferValue host.listLevels v = .ok d) (tree : FileTree) :
    load host validate tree none (some environment) =
      (validate (setPath setting.path d [])).mapError .invalid := by
  have hsettings : settingsAmong environment = [(setting.path, v)] := by
    rw [settingsAmong, h, List.map_singleton, pathOfVariable_name]
  have hread : readEnvironment host.listLevels variablePrefix (Fields.ofList environment) =
      .ok (setPath setting.path d []) := by
    rw [readEnvironment_eq, settingVariables, settingsAmong_ofList (by simp [hsettings]), hsettings,
      List.mapM_cons, readVariable, hd]
    rfl
  rw [load_of_readEnvironment hread]
  simp only [fileTable, mergeOn, overlap_nil, Nat.not_lt_zero, if_false, merge_nil_setPath,
    Except.bind]

/-- A text becomes the setting as it is, unless it is taken for something else: then it is
reported as no text. -/
theorem load_text_setting (setting : TextSetting) (hg : validate.GoesBy checks)
    (hc : checks.Lawful)
    (h : environment.filter (fun w => holdsSetting w.1) = [(setting.name, v)])
    (hr : WithinReach host.listLevels v) (tree : FileTree) :
    (¬ Inferred host.listLevels v →
        load host validate tree none (some environment) = .ok (setting.alone v)) ∧
      (Inferred host.listLevels v →
        ∃ report, load host validate tree none (some environment) =
          .error (.invalid ⟨[⟨setting.path, "string_type"⟩], report⟩)) := by
  constructor
  · intro hv
    have hvalid := (hg _).trans (table_setPath_of_ok setting (hc.text v))
    rw [load_setting setting h (inferValue_of_not_inferred hr hv), mapError_eq_ok_iff.mp hvalid]
    rfl
  · intro hv
    obtain ⟨d, hd, hother⟩ := inferValue_of_inferred hv
    have hinvalid := (hg _).trans (table_setPath_of_error setting (hc.notAText d hother))
    rw [load_setting setting h hd]
    generalize validate (setPath setting.path d []) = result at hinvalid
    rcases result with ⟨issues, report⟩ | settings
    · have hissues : issues = [⟨setting.path, "string_type"⟩] := by
        simpa using Except.error.inj hinvalid
      exact ⟨report, by rw [hissues]; rfl⟩
    · cases hinvalid

/-- The name of an encoding that is written as a number alone. -/
theorem load_numbered_encoding :
    load .usual Packages.usual.validate ⟨[], []⟩ none (some [("STACHE_ENCODING", "1252")]) =
      .error (.invalid ⟨[⟨["encoding"], "string_type"⟩], "encoding: string_type"⟩) := by
  have h : [("STACHE_ENCODING", "1252")].filter (fun w => holdsSetting w.1) =
      [(TextSetting.encoding.name, "1252")] := by
    decide +kernel
  have hinteger : Number.IntegerLiteral "1252".toList :=
    (Number.isSome_parseInteger?_iff _).mp (by decide +kernel)
  obtain ⟨d, hd, hother⟩ := inferValue_of_inferred (.integer hinteger)
  have hchecked := table_setPath_of_error .encoding (lawful_usual.notAText d hother)
  rw [load_setting .encoding h hd]
  change (Config.validate _).mapError _ = _
  rw [Config.validate, hchecked]
  cbv

theorem load_text_setting_latin :
    [("HOME", "/"), ("STACHE_ENCODING", "latin-1")].filter (fun w => holdsSetting w.1) =
        [(TextSetting.encoding.name, "latin-1")] ∧
      WithinReach Host.usual.listLevels "latin-1" ∧ ¬ Inferred Host.usual.listLevels "latin-1" ∧
      load .usual Packages.usual.validate ⟨[], []⟩ none
          (some [("HOME", "/"), ("STACHE_ENCODING", "latin-1")]) =
        .ok (TextSetting.encoding.alone "latin-1") := by
  have h : [("HOME", "/"), ("STACHE_ENCODING", "latin-1")].filter (fun w => holdsSetting w.1) =
      [(TextSetting.encoding.name, "latin-1")] := by
    decide +kernel
  obtain ⟨hr, hv⟩ : WithinReach Host.usual.listLevels "latin-1" ∧
      ¬ Inferred Host.usual.listLevels "latin-1" :=
    not_inferred_of_plain (by decide +kernel) (by decide +kernel) (by decide +kernel)
  exact ⟨h, hr, hv,
    (load_text_setting .encoding goesBy_validate lawful_usual h hr ⟨[], []⟩).1 hv⟩

end Mustache.Config
