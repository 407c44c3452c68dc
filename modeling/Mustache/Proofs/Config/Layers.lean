import Mathlib
import Mustache.Packages.Usual
import Mustache.Proofs.Config.Reading
import Mustache.Proofs.Config.Validation
import Mustache.Proofs.Config.Variables
import Mustache.Proofs.Files.Written

/-! Where the settings of a command come from. While no variable sets a path on which another
one leads on, each setting is that of the command line if it is given, else the value of its
variable, else what the settings file has, else the default; the directories that the file
names, and no others, are seen from the place of the file. This holds setting by setting,
those for logging included, although the layers are combined table by table. Of the package that
checks settings no more is used than that it checks each by itself, takes a list of texts as
directories and takes no table where a single value should stand. -/

namespace Mustache.Config

open Data Files CommandLine

/-- The settings table of a configured file and the place of the file. The table is empty if
no file is configured. -/
def Configured (host : Host) (tree : FileTree) (config : Option Path) (directory : Path)
    (table : Table) : Prop :=
  match config with
  | none => table = []
  | some p => directory = p.parent ∧ ∃ whole, parseFile host tree p = .ok whole ∧ Owns p whole table

/-- The directories that a search path in a table names, as they are seen from somewhere. -/
def Directories (seen : String → Path) (found : Option Document) (paths : List Path) : Prop :=
  match found with
  | none => paths = [.here]
  | some d => ∃ texts, Spells d texts ∧ paths = texts.map seen

/-- What is found for a setting: the value of its variable, or else what the table has. -/
def layered? (levels : Nat) (environment : Environment) (table : Table) (path : List String) :
    Option Document :=
  (assigned? levels environment path).or (lookup? path (.table table))

/-- Settings that come from the layers as they should, each by itself. -/
structure Layered (checks : Checks) (levels : Nat) (i : Invocation) (environment : Environment)
    (directory : Path) (table : Table) (settings : Settings) : Prop where
  searchPath :
    if i.searchPath ≠ [] then settings.searchPath = i.searchPath
    else match assigned? levels environment ["search_path"] with
      | some d => checks.paths (coerceSearchPath d) = .ok settings.searchPath
      | none => Directories (fun s => directory.join (.ofText s))
          (lookup? ["search_path"] (.table table)) settings.searchPath
  extension :
    match i.extension with
    | some extension => settings.extension = extension
    | none => Takes checks.text "" (layered? levels environment table ["extension"])
        settings.extension
  encoding : Takes checks.text "utf-8" (layered? levels environment table ["encoding"])
    settings.encoding
  maxSourceBytes : Takes (checks.positive none) defaultMaxSourceBytes
    (layered? levels environment table ["max_source_bytes"]) settings.maxSourceBytes
  maxDepth : Takes (checks.positive (some maxDepthLimit)) Template.defaultMaxDepth
    (layered? levels environment table ["max_depth"]) settings.maxDepth
  level : Takes checks.level .warning (layered? levels environment table ["logging", "level"])
    settings.logging.level
  format : Takes checks.format .text (layered? levels environment table ["logging", "format"])
    settings.logging.format
  file : Takes checks.text "" (layered? levels environment table ["logging", "file"])
    settings.logging.file

variable {host : Host} {validate : Validator} {checks : Checks} {levels : Nat} {tree : FileTree}
  {environment : Environment} {p directory : Path} {base table override : Table}
  {path : List String} {settings : Settings}

/-- No table passes a check. -/
def RejectsTables {α : Type} (check : Document → Checked α) : Prop :=
  ∀ entries value, check (.table entries) ≠ .ok value

theorem rejectsTables_of_error {α : Type} {check : Document → Checked α} {issues : List Issue}
    (h : ∀ entries, check (.table entries) = .error issues) : RejectsTables check := by
  intro entries value hvalue
  cases (h entries).symm.trans hvalue

namespace Checks.Lawful

theorem text_rejectsTables (h : checks.Lawful) : RejectsTables checks.text :=
  rejectsTables_of_error fun entries => h.notAText (.table entries) nofun

theorem paths_rejectsTables (h : checks.Lawful) :
    RejectsTables (checks.paths ∘ coerceSearchPath) :=
  rejectsTables_of_error fun entries => h.notAList (.table entries) nofun

end Checks.Lawful

/-- A path on the way to which, in a merged table, there are only tables. -/
def Unobstructed (path : List String) (merged : Table) : Prop :=
  ∀ front d, front ≠ [] → front <+: path → front ≠ path → lookup? front (.table merged) = some d →
    d.IsTable

theorem unobstructed_single (key : String) (merged : Table) : Unobstructed [key] merged := by
  intro front d hf hp hne
  rcases List.prefix_concat_iff.mp (show front <+: [] ++ [key] from hp) with h | h
  · exact absurd h hne
  · exact absurd (List.prefix_nil.mp h) hf

theorem unobstructed_pair {key other : String} {merged : Table}
    (h : ∀ d, lookup? [key] (.table merged) = some d → d.IsTable) :
    Unobstructed [key, other] merged := by
  intro front d hf hp hne hl
  rcases List.prefix_concat_iff.mp (show front <+: [key] ++ [other] from hp) with heq | hp
  · exact absurd heq hne
  · by_cases hk : front = [key]
    · subst hk
      exact h d hl
    · exact unobstructed_single key merged front d hf hp hk hl

/-- A setting that takes a value in a merged table takes it from its variable or the table. -/
theorem takes_layered {α : Type} {check : Document → Checked α} {default value : α}
    (hp : PathsApart environment)
    (he : readEnvironment levels variablePrefix (Fields.ofList environment) = .ok override)
    (hcheck : RejectsTables check) (hpath : path ≠ [])
    (hclear : Unobstructed path (merge base override))
    (hbase : lookup? path (.table base) = lookup? path (.table table))
    (h : Takes check default (lookup? path (.table (merge base override))) value) :
    Takes check default (layered? levels environment table path) value := by
  rw [layered?, ← hbase]
  rcases lookup?_merge_environment hp he hpath base with ⟨d, ha, hl⟩ | ⟨ha, hl⟩ | ⟨entries, hl⟩ |
    ⟨front, d, hf, hfp, hne, hl, hd⟩
  · rw [hl] at h
    rwa [ha, Option.some_or]
  · rw [hl] at h
    rwa [ha, Option.none_or]
  · rw [hl] at h
    exact absurd h (hcheck entries value)
  · exact absurd (hclear front d hf hfp hne hl) hd

/-! ### The table of a file -/

/-- A list is a search path unless there is something in it that is no text. -/
theorem exists_spells {items : List Document} (h : ¬ HoldsNonText (.list items)) :
    ∃ texts, Spells (.list items) texts := by
  rcases anchor_cases .here items with ⟨texts, rfl, -⟩ | ⟨item, hm, hi, -⟩
  · exact ⟨texts, .many texts⟩
  · exact absurd ⟨items, item, rfl, hm, hi⟩ h

/-- Anchored directories are read back as the directories seen from the place of the file. -/
theorem Anchors.directories {paths : List Path} (h : Anchors directory table (.ok base))
    (hc : checks.Lawful) (hd : directory.IsWritten)
    (hp : Takes (checks.paths ∘ coerceSearchPath) [.here]
      (lookup? ["search_path"] (.table base)) paths) :
    Directories (fun s => directory.join (.ofText s)) (lookup? ["search_path"] (.table table))
      paths := by
  rw [lookup?_single] at hp ⊢
  generalize hresult : Except.ok base = result at h
  cases h with
  | untouched h =>
    rw [Except.ok.inj hresult] at hp
    rcases hf : Fields.find? "search_path" table with _ | d <;> rw [hf] at hp
    · exact hp
    -- What is neither a text nor a list of texts passes no check.
    obtain ⟨hall, hno⟩ := h d hf
    have htext : ∀ s, d ≠ .text s := by
      rintro s rfl
      exact hno _ (.one s)
    have hlist : ∀ items, d ≠ .list items := by
      rintro items rfl
      obtain ⟨texts, hs⟩ := exists_spells hall
      exact hno texts hs
    have hsame : coerceSearchPath d = d := by
      cases d with
      | text s => exact absurd rfl (htext s)
      | _ => rfl
    have hvalue : checks.paths (coerceSearchPath d) = .ok paths := hp
    rw [hsame, hc.notAList d hlist] at hvalue
    cases hvalue
  | @anchored d texts hf hs =>
    rw [Except.ok.inj hresult, Fields.find?_put, if_pos rfl] at hp
    rw [hf]
    have hread (s : String) :
        Path.ofText (directory.join (.ofText s)).text = directory.join (.ofText s) :=
      Path.ofText_text (hd.join (Path.isWritten_ofText s))
    have hpaths := hc.paths (texts.map fun s => (directory.join (.ofText s)).text)
    rw [List.map_map, List.map_map] at hpaths
    refine ⟨texts, hs, ?_⟩
    rw [← Except.ok.inj (hpaths.symm.trans hp)]
    exact List.map_congr_left fun s _ => Function.comp_apply.trans (hread s)
  | notAPath => cases hresult

/-! ### All layers -/

/-- The two tables of a load that succeeds: that of the configured file, with its directories
as they are seen from the place of the file, and that of the environment. -/
theorem exists_configured {config : Option Path} (hg : validate.GoesBy checks)
    (hc : checks.Lawful) (hw : ∀ p ∈ config, p.IsWritten)
    (h : Config.load host validate tree config (some environment) = .ok settings) :
    ∃ directory table base override, Configured host tree config directory table ∧
      (∀ key path, key ≠ "search_path" →
        lookup? (key :: path) (.table base) = lookup? (key :: path) (.table table)) ∧
      (∀ paths, Takes (checks.paths ∘ coerceSearchPath) [.here]
          (lookup? ["search_path"] (.table base)) paths →
        Directories (fun s => directory.join (.ofText s)) (lookup? ["search_path"] (.table table))
          paths) ∧
      readEnvironment host.listLevels variablePrefix (Fields.ofList environment) = .ok override ∧
      Passes checks (merge base override) settings := by
  rcases he : readEnvironment host.listLevels variablePrefix (Fields.ofList environment) with
    e | override
  · rw [load_eq_bind, he] at h
    cases hbase : fileTable host tree config <;> rw [hbase] at h <;> cases h
  rw [load_of_readEnvironment he] at h
  rcases hbase : fileTable host tree config with e | base <;> rw [hbase] at h
  · cases h
  have hpasses : Passes checks (merge base override) settings := by
    rw [Except.bind, mergeOn] at h
    split at h
    · cases h
    · exact hg.eq_ok_iff.mp (mapError_eq_ok_iff.mp h)
  cases config with
  | none =>
    obtain rfl : [] = base := Except.ok.inj hbase
    exact ⟨.here, [], [], override, rfl, fun _ _ _ => rfl, fun paths hp => hp, rfl, hpasses⟩
  | some p =>
    have hr : readFile host tree p = .ok base := hbase
    rcases hparse : parseFile host tree p with e | whole
    · simp only [readFile, hparse, bind, Except.bind] at hr
      cases hr
    rcases readFile_cases hparse with ⟨-, herror⟩ | ⟨-, table, howns, hanchors⟩
    · cases herror.symm.trans hr
    · rw [hr] at hanchors
      exact ⟨p.parent, table, base, override, ⟨rfl, whole, hparse, howns⟩,
        fun key path hk => hanchors.lookup?_eq hk path,
        fun paths hp => hanchors.directories hc (hw p rfl).parent hp, rfl, hpasses⟩

/-- The settings of a command come from its layers, each setting by itself. The path of the
settings file is one that a text denotes, as it is on every command line. -/
theorem settings_layered {i : Invocation} (hg : validate.GoesBy checks) (hc : checks.Lawful)
    (hp : PathsApart environment) (hw : ∀ p ∈ i.config, p.IsWritten)
    (h : i.settings host validate tree environment = .ok settings) :
    ∃ directory table, Configured host tree i.config directory table ∧
      Layered checks host.listLevels i environment directory table settings := by
  rw [Invocation.settings] at h
  rcases hl : Config.load host validate tree i.config (some environment) with e | configured <;>
    rw [hl] at h <;> cases h
  obtain ⟨directory, table, base, override, hfile, hsame, hdirectories, he, hpasses⟩ :=
    exists_configured hg hc hw hl
  have hsingle {α : Type} {check : Document → Checked α} {default value : α} (key : String)
      (hk : key ≠ "search_path") (hr : RejectsTables check)
      (ht : Takes check default (lookup? [key] (.table (merge base override))) value) :
      Takes check default (layered? host.listLevels environment table [key]) value :=
    takes_layered hp he hr (by simp) (unobstructed_single key _) (hsame key [] hk) ht
  have hlogging {α : Type} {check : Document → Checked α} {default value : α} (key : String)
      (hr : RejectsTables check)
      (ht : Takes check default (lookup? ["logging", key] (.table (merge base override))) value) :
      Takes check default (layered? host.listLevels environment table ["logging", key]) value :=
    takes_layered hp he hr (by simp) (unobstructed_pair hpasses.logging)
      (hsame "logging" [key] (by simp)) ht
  refine ⟨directory, table, hfile, ?_⟩
  constructor
  · dsimp only [Invocation.override]
    split <;> rename_i hgiven
    · rw [if_neg (by simpa using hgiven)]
    · rw [if_pos (by simpa using hgiven)]
      have hpaths := takes_layered hp he hc.paths_rejectsTables (by simp)
        (unobstructed_single "search_path" _) rfl hpasses.searchPath
      rw [layered?] at hpaths
      cases ha : assigned? host.listLevels environment ["search_path"] <;> rw [ha] at hpaths
      · exact hdirectories _ hpaths
      · exact hpaths
  · dsimp only [Invocation.override]
    cases i.extension with
    | some extension => rfl
    | none => exact hsingle "extension" (by simp) hc.text_rejectsTables hpasses.extension
  · exact hsingle "encoding" (by simp) hc.text_rejectsTables hpasses.encoding
  · exact hsingle "max_source_bytes" (by simp) (rejectsTables_of_error (hc.positive _))
      hpasses.maxSourceBytes
  · exact hsingle "max_depth" (by simp) (rejectsTables_of_error (hc.positive _)) hpasses.maxDepth
  · exact hlogging "level" (rejectsTables_of_error hc.level) hpasses.level
  · exact hlogging "format" (rejectsTables_of_error hc.format) hpasses.format
  · exact hlogging "file" hc.text_rejectsTables hpasses.file

/-- A directory with a settings file in it that names a directory and a level. -/
def layeredTree : FileTree where
  entries := [(["conf"], .directory), (["conf", "stache.toml"],
    .file "search_path='t'\n[logging]\nlevel='debug'".toUTF8.toList)]
  workingDirectory := []

def layeredEnvironment : Environment :=
  [("HOME", "/"), ("STACHE_LOGGING__FORMAT", "json"), ("STACHE_EXTENSION", ".txt")]

theorem settingVariables_layeredEnvironment : settingVariables layeredEnvironment =
    [(["logging", "format"], "json"), (["extension"], ".txt")] := by
  decide +kernel

theorem parseFile_layeredTree :
    parseFile .usual layeredTree (Path.ofText "conf/stache.toml") =
      .ok [("search_path", .text "t"), ("logging", .table [("level", .text "debug")])] := by
  cbv

theorem readEnvironment_layeredEnvironment :
    readEnvironment Host.usual.listLevels variablePrefix (Fields.ofList layeredEnvironment) =
      .ok [("logging", .table [("format", .text "json")]), ("extension", .text ".txt")] := by
  rw [readEnvironment_eq, settingVariables_layeredEnvironment]
  have hjson : inferValue Host.usual.listLevels "json" = .ok (.text "json") := by
    rw [inferValue, show Text.lowercase "json" = "json" by decide +kernel]
    cbv
  have htxt : inferValue Host.usual.listLevels ".txt" = .ok (.text ".txt") := by
    rw [inferValue, show Text.lowercase ".txt" = ".txt" by decide +kernel]
    cbv
  simp only [List.mapM_cons, readVariable, hjson, htxt]
  rfl

/-- A check of templates with that file. -/
def layeredInvocation : Invocation :=
  ⟨.check [], some (Path.ofText "conf/stache.toml"), [], none⟩

theorem settings_layered_command :
    PathsApart layeredEnvironment ∧ (∀ p ∈ layeredInvocation.config, p.IsWritten) ∧
      ∃ settings, layeredInvocation.settings .usual Packages.usual.validate layeredTree
          layeredEnvironment = .ok settings ∧
        ∃ directory table, Configured .usual layeredTree layeredInvocation.config directory table ∧
          Layered .usual Host.usual.listLevels layeredInvocation layeredEnvironment directory table
            settings := by
  have hp : PathsApart layeredEnvironment := by
    rw [PathsApart, settingVariables_layeredEnvironment]
    simp [Apart]
  have hw : ∀ p ∈ layeredInvocation.config, p.IsWritten := by
    rintro p ⟨⟩
    exact Path.isWritten_ofText _
  have hsettings : layeredInvocation.settings .usual Packages.usual.validate layeredTree
      layeredEnvironment = .ok
        { searchPath := [⟨.relative, ["conf", "t"]⟩]
          extension := ".txt"
          logging := ⟨.debug, .json, ""⟩ } := by
    unfold Invocation.settings Config.load readFile layeredInvocation
    simp only [parseFile_layeredTree, readEnvironment_layeredEnvironment]
    cbv
  exact ⟨hp, hw, _, hsettings, settings_layered goesBy_validate lawful_usual hp hw hsettings⟩

end Mustache.Config
