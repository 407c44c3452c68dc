import Mathlib
import Mustache.Packages.Usual
import Mustache.Proofs.Config.Inference
import Mustache.Proofs.Engine.Batch
import Mustache.Proofs.Files.Appending

/-! What a check of templates reports. The templates of a check share an engine, its cache and
its log file, and each template is reported on when it has been compiled. A cached template was
compiled once, a failure leaves no trace in the cache, and the log file can only grow; so what
is found of a template at any point of a check is what was there to be found at the start,
unless the template is the log file itself. Main result: the reports and the exit code of a
check, which the order of the templates changes for none but such a one. -/

namespace Mustache.CommandLine

open Files Log

/-- The error with which a template was refused, if it was. A failure of another kind ends a
check, so there is nothing to say about it. -/
def verdictOf : Except Failure Template → Option TemplateError
  | .error (.template e) => some e
  | _ => none

/-- What is wrong with a template, if anything is. -/
def verdict (setup : Setup) (identifier : String) : Option TemplateError :=
  verdictOf (setup.compiled identifier)

/-- The line on a template: that it is fine, or where and what is wrong. -/
def reportLine (identifier : String) : Option TemplateError → String
  | none => identifier ++ ": ok\n"
  | some e => identifier ++ ": " ++ e.report

/-- The exit code that comes of the verdicts on some templates: that of the first error. -/
def firstCode : List (Option TemplateError) → ExitCode
  | [] => .success
  | none :: rest => firstCode rest
  | some e :: _ => exitCode e.trouble

/-- A check reported on templates. There is a line for each verdict, in order, and nothing else;
the exit code is that of the first template that fails, and tells whether all are fine. -/
structure Reports (templates : List String) (verdicts : List (Option TemplateError))
    (out : Output) : Prop where
  each : verdicts.length = templates.length
  stdout : out.stdout = String.join (List.zipWith reportLine templates verdicts)
  complaint : out.complaint = none
  exit : out.exit = (firstCode verdicts).number
  success : out.exit = ExitCode.success.number ↔ ∀ verdict ∈ verdicts, verdict = none

/-- A log takes down anything that comes of templates. -/
def TakesDown (j : Journal) : Prop := ∃ event, j.write (.ofEvent event) ≠ ""

/-- The source of an identifier is the log file, and the log takes down what comes of templates. -/
def ReadsLog (journal : Option Journal) (loader : Loader) (identifier : String) : Prop :=
  ∃ j, journal = some j ∧ TakesDown j ∧ loader.ReadsFrom j.place identifier

/-- Looking up an identifier raises nothing but template errors. -/
def Answers (loader : Loader) (identifier : String) : Prop :=
  ∀ failure, loader.load identifier = .error failure → ∃ e, failure = .template e

/-- Sources as they are at some point of a check: the log file may have grown. -/
inductive Grown (journal : Option Journal) (loader : Loader) : Loader → Prop
  | same : Grown journal loader loader
  | noted {j : Journal} (hj : journal = some j) (ht : TakesDown j) (bytes : List UInt8) :
    Grown journal loader (loader.changeFiles (·.append j.place bytes))

/-- What compiling a template comes to at some point of a check. -/
def Seen (setup : Setup) (journal : Option Journal) (identifier : String)
    (result : Except Failure Template) : Prop :=
  ∃ loader, Grown journal setup.loader loader ∧
    Setup.compiled { setup with loader } identifier = result

/-- A template is cached, or it is what its source compiles to. -/
def Yields (engine : Engine) (identifier : String) (t : Template) : Prop :=
  engine.cache.find? identifier = some t ∨ engine.setup.compiled identifier = .ok t

/-- An engine in the middle of a check: its sources have only grown, and what it has cached was
compiled at some point. -/
structure Underway (setup : Setup) (journal : Option Journal) (engine : Engine) : Prop where
  grown : Grown journal setup.loader engine.setup.loader
  options : engine.setup = { setup with loader := engine.setup.loader }
  cached : ∀ identifier t, engine.cache.find? identifier = some t →
    Seen setup journal identifier (.ok t)

/-- A check that had come to `report` and `code` has gone on with templates: each verdict is what
was seen of its template, and all of them are reported behind what was there. -/
structure GoesOn (setup : Setup) (journal : Option Journal) (code : ExitCode) (report : String)
    (templates : List String) (verdicts : List (Option TemplateError)) (out : Output) : Prop where
  seen : List.Forall₂ (fun identifier verdict => ∃ result,
    Seen setup journal identifier result ∧ verdict = verdictOf result) templates verdicts
  stdout : out.stdout = report ++ String.join (List.zipWith reportLine templates verdicts)
  complaint : out.complaint = none
  exit : out.exit = (if code = .success then firstCode verdicts else code).number

variable {journal : Option Journal} {loader loader' : Loader} {setup : Setup} {engine : Engine}
  {identifier report : String} {templates rest : List String}
  {verdicts : List (Option TemplateError)} {code : ExitCode} {out : Output} {failure : Failure}
  {result : Except Failure Template} {t : Template} {e : TemplateError}

/-! ### Exit codes -/

theorem exitCode_ne_success (trouble : Trouble) : exitCode trouble ≠ .success := by
  cases trouble <;> simp [exitCode]

theorem number_eq_success_iff {code : ExitCode} :
    code.number = ExitCode.success.number ↔ code = .success := by
  cases code <;> simp [ExitCode.number]

theorem firstCode_eq_success_iff :
    firstCode verdicts = .success ↔ ∀ verdict ∈ verdicts, verdict = none := by
  induction verdicts with
  | nil => simp [firstCode]
  | cons verdict rest ih =>
    cases verdict with
    | none => simpa [firstCode] using ih
    | some e => simp [firstCode, exitCode_ne_success]

/-! ### Growing log files -/

/-- A log that does not take down what comes of templates takes down nothing. -/
theorem bytes_eq_nil {j : Journal} (h : ¬ TakesDown j) (events : List Event) :
    j.bytes events = [] := by
  have hwrite (event : Event) : j.write (.ofEvent event) = "" :=
    not_not.mp fun hne => h ⟨event, hne⟩
  have hjoin : String.join (events.map fun event => j.write (.ofEvent event)) = "" := by
    simp only [hwrite]
    induction events with
    | nil => rfl
    | cons event rest ih => rw [List.map_cons, String.join_cons, ih, String.empty_append]
  rw [Journal.bytes, hjoin]
  rfl

namespace Grown

theorem noting (engine : Engine) (h : Grown journal loader engine.setup.loader)
    (events : List Event) : Grown journal loader (noting journal events engine).setup.loader := by
  cases journal with
  | none => exact h
  | some j =>
    change Grown _ _ (engine.setup.loader.changeFiles (·.append j.place (j.bytes events)))
    by_cases ht : TakesDown j
    · -- What was noted before and what is noted now are one growth of the same file.
      generalize engine.setup.loader = later at h ⊢
      cases h with
      | same => exact .noted rfl ht _
      | noted hj ht' bytes =>
        cases hj
        rw [Loader.changeFiles_append_append]
        exact .noted rfl ht _
    · rw [bytes_eq_nil ht, Loader.changeFiles_append_nil]
      exact h

theorem load_eq (h : Grown journal loader loader') (hr : ¬ ReadsLog journal loader identifier) :
    loader'.load identifier = loader.load identifier := by
  cases h with
  | same => rfl
  | noted hj ht bytes =>
    exact Loader.load_append_of_not_readsFrom fun hreads => hr ⟨_, hj, ht, hreads⟩

/-- What escapes the loader at the start escapes it later, and nothing else does. -/
theorem load_eq_error_iff (h : Grown journal loader loader')
    (hf : ∀ e, failure ≠ .template e) :
    loader'.load identifier = .error failure ↔ loader.load identifier = .error failure := by
  cases h with
  | same => rfl
  | noted hj ht bytes => exact Loader.load_append_eq_error_iff hf

end Grown

/-! ### One template -/

/-- What compiling a template comes to at any point of a check, unless it is the log file. -/
theorem Seen.compiled_eq (h : Seen setup journal identifier result)
    (hr : ¬ ReadsLog journal setup.loader identifier) : setup.compiled identifier = result := by
  obtain ⟨loader, hgrown, rfl⟩ := h
  rw [Setup.compiled, Setup.compiled, hgrown.load_eq hr]

/-- What can be looked up at the start can be looked up later. -/
theorem Seen.exists_template (h : Seen setup journal identifier (.error failure))
    (hl : Answers setup.loader identifier) : ∃ e, failure = .template e := by
  obtain ⟨loader, hgrown, hcompiled⟩ := h
  obtain ⟨e, rfl, -⟩ | ⟨-, hload⟩ := (Setup.refuses_of_compiled hcompiled).names_or_escapes
  · exact ⟨e, rfl⟩
  · by_contra hother
    have hf : ∀ e, failure ≠ .template e := fun e he => hother ⟨e, he⟩
    exact hother (hl failure ((hgrown.load_eq_error_iff hf).mp hload))

/-- A step that compiles one template yields it, or fails; what is cached then was yielded. -/
theorem step_compile (engine : Engine) (identifier : String) :
    ∃ out cache, engine.step (.compile [identifier]) = (out, ⟨engine.setup, cache⟩) ∧
      (∀ other t, cache.find? other = some t → Yields engine other t) ∧
      ((out.result = .ok none ∧ ∃ t, Yields engine identifier t) ∨
        ∃ failure, out.result = .error failure ∧
          engine.setup.compiled identifier = .error failure) := by
  refine ⟨engine.outcome (.compile [identifier]), _, rfl, ?_⟩
  rw [Engine.outcome, Engine.run, Setup.compileAll_cons]
  cases hfind : engine.cache.find? identifier with
  | some t =>
    rw [Setup.fetch_of_find?_eq_some hfind]
    exact ⟨fun _ _ => .inl, .inl ⟨rfl, t, .inl hfind⟩⟩
  | none =>
    cases hcompiled : engine.setup.compiled identifier with
    | ok t =>
      rw [Setup.fetch_of_compiled_eq_ok hfind hcompiled]
      refine ⟨fun other t' hother => ?_, .inl ⟨rfl, t, .inr hcompiled⟩⟩
      obtain ⟨rfl, -⟩ := Setup.compiled_eq_ok_iff.mp hcompiled
      have hadded : (engine.cache.add t).find? other = some t' := hother
      rw [Cache.find?_add, Option.or_eq_some_iff] at hadded
      rcases hadded with hold | ⟨-, hnew⟩
      · exact .inl hold
      · split at hnew
        · rename_i heq
          cases hnew
          exact .inr (heq ▸ hcompiled)
        · cases hnew
    | error failure =>
      rw [Setup.fetch_of_compiled_eq_error hfind hcompiled]
      exact ⟨fun _ _ => .inl, .inr ⟨failure, rfl, rfl⟩⟩

namespace Underway

theorem start (setup : Setup) (journal : Option Journal) :
    Underway setup journal (Engine.fresh setup) where
  grown := .same
  options := rfl
  cached := nofun

theorem seen (h : Underway setup journal engine) (identifier : String) :
    Seen setup journal identifier (engine.setup.compiled identifier) :=
  ⟨engine.setup.loader, h.grown, by rw [← h.options]⟩

theorem yields (h : Underway setup journal engine)
    (hy : Yields engine identifier t) : Seen setup journal identifier (.ok t) := by
  rcases hy with hcached | hcompiled
  · exact h.cached identifier t hcached
  · exact hcompiled ▸ h.seen identifier

/-- The check goes on with a cache of what the engine yields, and a log file that has grown. -/
theorem noting (h : Underway setup journal engine) {cache : Cache}
    (hc : ∀ identifier t, cache.find? identifier = some t → Yields engine identifier t)
    (events : List Event) :
    Underway setup journal (noting journal events ⟨engine.setup, cache⟩) where
  grown := Grown.noting ⟨engine.setup, cache⟩ h.grown events
  options := by
    cases journal with
    | none => exact h.options
    | some j =>
      have hoptions := h.options
      generalize engine.setup = present at hoptions ⊢
      rw [hoptions]
      rfl
  cached identifier t hfind := by
    have hcache : cache.find? identifier = some t := by
      cases journal <;> exact hfind
    exact h.yields (hc identifier t hcache)

end Underway

/-! ### All templates -/

namespace GoesOn

theorem nil (setup : Setup) (journal : Option Journal) (code : ExitCode) (report : String) :
    GoesOn setup journal code report [] [] { exit := code.number, stdout := report } where
  seen := .nil
  stdout := by simp [String.join]
  complaint := rfl
  exit := by cases code <;> rfl

/-- A template that is fine leaves the code. -/
theorem fine (h : GoesOn setup journal code (report ++ identifier ++ ": ok\n") rest verdicts out)
    (hs : Seen setup journal identifier (.ok t)) (events : List Event) :
    GoesOn setup journal code report (identifier :: rest) (none :: verdicts)
      (out.after events) where
  seen := .cons ⟨_, hs, rfl⟩ h.seen
  stdout := by
    rw [List.zipWith_cons_cons, String.join_cons, reportLine]
    exact h.stdout.trans (by simp only [String.append_assoc])
  complaint := h.complaint
  exit := h.exit

/-- A template that fails sets the code, unless an earlier one has. -/
theorem failing
    (h : GoesOn setup journal (if code = .success then exitCode e.trouble else code)
      (report ++ identifier ++ ": " ++ e.report) rest verdicts out)
    (hs : Seen setup journal identifier (.error (.template e))) (events : List Event) :
    GoesOn setup journal code report (identifier :: rest) (some e :: verdicts)
      (out.after events) where
  seen := .cons ⟨_, hs, rfl⟩ h.seen
  stdout := by
    rw [List.zipWith_cons_cons, String.join_cons, reportLine]
    exact h.stdout.trans (by simp only [String.append_assoc])
  complaint := h.complaint
  exit := by
    refine h.exit.trans ?_
    by_cases hcode : code = .success
    · rw [if_pos hcode, if_neg (exitCode_ne_success _), if_pos hcode, firstCode]
    · rw [if_neg hcode, if_neg hcode, if_neg hcode]

end GoesOn

/-- A check goes on over all its templates, if they can be looked up. -/
theorem exists_goesOn (h : Underway setup journal engine)
    (hl : ∀ identifier ∈ templates, Answers setup.loader identifier) (code : ExitCode)
    (report : String) :
    ∃ verdicts out, check journal engine code report templates = .ok out ∧
      GoesOn setup journal code report templates verdicts out := by
  -- The engine changes from one template to the next; that it is underway is what stays.
  induction templates generalizing engine code report with
  | nil => exact ⟨[], _, rfl, .nil setup journal code report⟩
  | cons identifier rest ih =>
    obtain ⟨hhere, hrest⟩ := List.forall_mem_cons.mp hl
    obtain ⟨step, cache, hstep, hcached, hresult⟩ := step_compile engine identifier
    have hnext := h.noting hcached step.session.events.toList
    rw [check, hstep]
    dsimp only
    rcases hresult with ⟨hok, t, hyields⟩ | ⟨failure, herror, hcompiled⟩
    · obtain ⟨verdicts, out, hcheck, hout⟩ := ih hnext hrest code (report ++ identifier ++ ": ok\n")
      simp only [hok, hcheck]
      exact ⟨_, _, rfl, hout.fine (h.yields hyields) _⟩
    · have hseen := h.seen identifier
      rw [hcompiled] at hseen
      obtain ⟨e, rfl⟩ := hseen.exists_template hhere
      obtain ⟨verdicts, out, hcheck, hout⟩ := ih hnext hrest
        (if code = .success then exitCode e.trouble else code)
        (report ++ identifier ++ ": " ++ e.report)
      simp only [herror, hcheck]
      exact ⟨_, _, rfl, hout.failing hseen _⟩

/-- What is found at the start is fine just if it compiles, where it can be looked up. -/
theorem verdict_eq_none_iff (hl : Answers setup.loader identifier) :
    verdict setup identifier = none ↔ ∃ t, setup.compiled identifier = .ok t := by
  have hseen : Seen setup none identifier (setup.compiled identifier) := ⟨_, .same, rfl⟩
  rw [verdict]
  cases hcompiled : setup.compiled identifier with
  | ok t => exact iff_of_true rfl ⟨t, rfl⟩
  | error failure =>
    obtain ⟨e, rfl⟩ := Seen.exists_template (hcompiled ▸ hseen) hl
    exact iff_of_false nofun nofun

/-- A check from a fresh engine, template by template. -/
theorem exists_reports (journal : Option Journal)
    (hl : ∀ identifier ∈ templates, Answers setup.loader identifier) :
    ∃ verdicts out, check journal (Engine.fresh setup) .success "" templates = .ok out ∧
      Reports templates verdicts out ∧
      List.Forall₂ (fun identifier found => ¬ ReadsLog journal setup.loader identifier →
        found = verdict setup identifier) templates verdicts := by
  obtain ⟨verdicts, out, hcheck, hout⟩ :=
    exists_goesOn (Underway.start setup journal) hl .success ""
  have hexit := hout.exit
  rw [if_pos rfl] at hexit
  refine ⟨verdicts, out, hcheck, ?_, hout.seen.imp ?_⟩
  · exact {
      each := hout.seen.length_eq.symm
      stdout := by rw [hout.stdout, String.empty_append]
      complaint := hout.complaint
      exit := hexit
      success := by rw [hexit, number_eq_success_iff, firstCode_eq_success_iff] }
  · rintro identifier _ ⟨result, hseen, rfl⟩ hr
    rw [verdict, hseen.compiled_eq hr]

theorem eq_map_of_forall₂ {α β : Type} {p : α → Prop} {f : α → β} {xs : List α} {ys : List β}
    (h : List.Forall₂ (fun x y => p x → y = f x) xs ys) (hp : ∀ x ∈ xs, p x) : ys = xs.map f := by
  induction h with
  | nil => rfl
  | cons hxy _ ih =>
    obtain ⟨hx, hxs⟩ := List.forall_mem_cons.mp hp
    rw [List.map_cons, hxy hx, ih hxs]

section Invocations

variable {i : Invocation} {host : Host} {packages : Packages} {tree : FileTree}
  {environment : Config.Environment} {settings : Settings}

theorem run_eq_check
    (hsettings : i.settings host packages.validate tree environment = .ok settings)
    (hopen : openEngine host packages.writer tree environment settings = .ok (engine, journal))
    (hcommand : i.command = .check templates) :
    i.run host packages tree environment =
      check journal (Engine.fresh engine.setup) .success "" templates := by
  have hfresh : engine = Engine.fresh engine.setup := by
    unfold openEngine at hopen
    cases hjournal : openJournal packages.writer tree environment settings.logging with
    | error fault =>
      rw [hjournal] at hopen
      cases hopen
    | ok opened =>
      rw [hjournal] at hopen
      cases hopen
      rfl
  rw [Invocation.run, hcommand, ← hfresh]
  simp only [Invocation.withEngine, hsettings, hopen]

/-- A check whose settings are loaded and whose log file can be opened reports on its templates,
one after the other, if all of them can be looked up. The report on one whose source is not
the log file is the one that its own source gives, over the files as they are when the log file
has been opened; where this is so for all templates, any order of them gives the same reports in
that order. -/
theorem check_reports
    (hsettings : i.settings host packages.validate tree environment = .ok settings)
    (hopen : openEngine host packages.writer tree environment settings = .ok (engine, journal))
    (hcommand : i.command = .check templates)
    (hl : ∀ identifier ∈ templates, Answers engine.setup.loader identifier) :
    (∃ verdicts out, i.run host packages tree environment = .ok out ∧
      Reports templates verdicts out ∧
      List.Forall₂ (fun identifier found => ¬ ReadsLog journal engine.setup.loader identifier →
        found = verdict engine.setup identifier) templates verdicts) ∧
    (∀ identifier ∈ templates, verdict engine.setup identifier = none ↔
      ∃ t, engine.setup.compiled identifier = .ok t) ∧
    ((∀ identifier ∈ templates, ¬ ReadsLog journal engine.setup.loader identifier) →
      ∀ reordered, templates.Perm reordered →
        ∃ out, Invocation.run { i with command := .check reordered } host packages tree
            environment = .ok out ∧
          Reports reordered (reordered.map (verdict engine.setup)) out) := by
  refine ⟨?_, fun identifier hm => verdict_eq_none_iff (hl identifier hm), ?_⟩
  · rw [run_eq_check hsettings hopen hcommand]
    exact exists_reports journal hl
  · intro hother reordered hperm
    have hl' : ∀ identifier ∈ reordered, Answers engine.setup.loader identifier :=
      fun identifier hm => hl identifier (hperm.mem_iff.mpr hm)
    obtain ⟨verdicts, out, hcheck, hreports, hfound⟩ := exists_reports journal hl'
    obtain rfl := eq_map_of_forall₂ hfound fun identifier hm =>
      hother identifier (hperm.mem_iff.mpr hm)
    have hsame : Invocation.settings { i with command := .check reordered } host
        packages.validate tree environment = .ok settings := hsettings
    exact ⟨out, (run_eq_check hsame hopen rfl).trans hcheck, hreports⟩

end Invocations

/-! ### A log file among the templates -/

section LogFile

open Config

def emptyTemplate : FileTree where
  entries := [(["a"], .file [])]
  workingDirectory := []

/-- Variables by which all is logged in a file where templates are, and no template has more than
one byte. -/
def logVariables : Environment :=
  [("STACHE_LOGGING__FILE", "log"), ("STACHE_LOGGING__LEVEL", "debug"),
    ("STACHE_MAX_SOURCE_BYTES", "1")]

def logSettings : Settings := { maxSourceBytes := 1, logging := ⟨.debug, .text, "log"⟩ }

def logTree (bytes : List UInt8) : FileTree where
  entries := [(["log"], .file bytes), (["a"], .file [])]
  workingDirectory := []

def logSetup (bytes : List UInt8) : Setup :=
  ⟨.files .usual (logTree bytes) [Path.here] "" 1, "utf-8", 100⟩

def logJournal : Journal := ⟨["log"], writer .text 10⟩

theorem load_logVariables :
    Config.load .usual Config.validate emptyTemplate none (some logVariables) =
      .ok logSettings := by
  have hsettings : settingVariables logVariables = [(["logging", "file"], "log"),
      (["logging", "level"], "debug"), (["max_source_bytes"], "1")] := by
    decide +kernel
  have hlimit : inferValue Host.usual.listLevels "1" = .ok (.int 1) := by
    have h : Text.lowercase "1" ≠ "true" ∧ Text.lowercase "1" ≠ "false" ∧
        Number.parseInteger? "1".toList = some 1 := by
      decide +kernel
    rw [inferValue, if_neg h.1, if_neg h.2.1, h.2.2]
  have hread : readEnvironment Host.usual.listLevels variablePrefix (Fields.ofList logVariables) =
      .ok [("logging", .table [("file", .text "log"), ("level", .text "debug")]),
        ("max_source_bytes", .int 1)] := by
    have hfile : inferValue Host.usual.listLevels "log" = .ok (.text "log") :=
      inferValue_of_plain (by decide +kernel) (by decide +kernel) (by decide +kernel)
    have hlevel : inferValue Host.usual.listLevels "debug" = .ok (.text "debug") :=
      inferValue_of_plain (by decide +kernel) (by decide +kernel) (by decide +kernel)
    rw [readEnvironment_eq, hsettings]
    simp only [List.mapM_cons, List.mapM_nil, readVariable, hfile, hlevel, hlimit]
    rfl
  rw [Config.load]
  simp only [hread]
  cbv

theorem settings_logVariables (command : Command) :
    Invocation.settings ⟨command, none, [], none⟩ .usual Packages.usual.validate emptyTemplate
      logVariables = .ok logSettings := by
  rw [Invocation.settings, show Packages.usual.validate = Config.validate from rfl,
    load_logVariables]
  rfl

theorem openEngine_logSettings :
    openEngine .usual Packages.usual.writer emptyTemplate logVariables logSettings =
      .ok (Engine.fresh (logSetup []), some logJournal) := by
  cbv

theorem compiled_empty (bytes : List UInt8) :
    (logSetup bytes).compiled "a" = .ok ⟨"a", "", []⟩ := by
  cbv

theorem compiled_missing (bytes : List UInt8) :
    (logSetup bytes).compiled "b" = .error (Loader.notFound "b") := by
  cbv

/-- What is logged of a template that is missing and of one that is fine disturbs neither. -/
theorem check_reports_missing :
    (∀ identifier ∈ ["b", "a"], Answers (logSetup []).loader identifier) ∧
      (∀ identifier ∈ ["b", "a"], ¬ ReadsLog (some logJournal) (logSetup []).loader identifier) ∧
      ∃ out, Invocation.run ⟨.check ["a", "b"], none, [], none⟩ .usual .usual emptyTemplate
          logVariables = .ok out ∧
        Reports ["a", "b"] [none, some { trouble := .notFound, identifier := some "b" }] out := by
  have hl : ∀ identifier ∈ ["b", "a"], Answers (logSetup []).loader identifier := by
    have hmissing : (logSetup []).loader.load "b" = .error (Loader.notFound "b") := by cbv
    have hempty : (logSetup []).loader.load "a" = .ok [] := by cbv
    intro identifier hm failure hload
    rcases List.mem_pair.mp hm with rfl | rfl
    · rw [hmissing] at hload
      cases hload
      exact ⟨_, rfl⟩
    · cases hempty.symm.trans hload
  have hother : ∀ identifier ∈ ["b", "a"],
      ¬ ReadsLog (some logJournal) (logSetup []).loader identifier := by
    have hmissing : Loader.findFile .usual (logTree []) (Path.ofText ("b" ++ "")) [Path.here] =
        .ok none := by
      cbv
    have hempty : Loader.findFile .usual (logTree []) (Path.ofText ("a" ++ "")) [Path.here] =
        .ok (some ["a"]) := by
      cbv
    have hplace : (logTree []).locate ⟨.slash, ["a"]⟩ = .ok ["a"] := by cbv
    intro identifier hm
    rintro ⟨_, ⟨⟩, -, found, hfind, hlog⟩
    rcases List.mem_pair.mp hm with rfl | rfl
    · cases hmissing.symm.trans hfind
    · cases hempty.symm.trans hfind
      exact absurd (hplace.symm.trans hlog) (by simp [logJournal])
  obtain ⟨-, -, horder⟩ := check_reports (settings_logVariables (.check ["b", "a"]))
    openEngine_logSettings rfl hl
  obtain ⟨out, hrun, hreports⟩ := horder hother ["a", "b"] (.swap _ _ _)
  refine ⟨hl, hother, out, hrun, ?_⟩
  rw [List.map_cons, List.map_cons, List.map_nil] at hreports
  have hempty : verdict (logSetup []) "a" = none := by
    rw [verdict, compiled_empty]
    rfl
  have hmissing : verdict (logSetup []) "b" =
      some { trouble := .notFound, identifier := some "b" } := by
    rw [verdict, compiled_missing]
    rfl
  rwa [Engine.fresh, hempty, hmissing] at hreports

theorem compiled_log {bytes : List UInt8} (h : 1 < bytes.length) :
    (logSetup bytes).compiled "log" = .error (Loader.oversized 1 "log") := by
  have hload : (logSetup bytes).loader.load "log" = .error (Loader.oversized 1 "log") := by
    have hfind : Loader.findFile .usual (logTree bytes) (Path.ofText ("log" ++ "")) [Path.here] =
        .ok (some ["log"]) := by
      cbv
    have hread : (logTree bytes).read ⟨.slash, ["log"]⟩ = .ok bytes := by cbv
    have htake : Loader.takeBytes .usual (1 + 1) bytes = .ok (bytes.take (1 + 1)) := by
      rw [Loader.takeBytes, if_neg (by decide), if_neg (by decide)]
    have hopen : Loader.openFile .usual (logTree bytes) ["log"] = .ok bytes := hread
    simp only [logSetup, Loader.load, hfind, hopen, htake, Loader.checkSize, List.length_take]
    rw [if_pos (by omega)]
  rw [Setup.compiled, hload]
  rfl

theorem noting_logSetup (events : List Event) (cache : Cache) :
    noting (some logJournal) events ⟨logSetup [], cache⟩ =
      ⟨logSetup (logJournal.bytes events), cache⟩ := by
  simp [noting, logSetup, logTree, Loader.changeFiles, Journal.note, FileTree.append,
    Entry.append, logJournal]

theorem lt_length_bytes (event : Event) : 1 < (logJournal.bytes [event]).length := by
  have hranks : ∀ level ∈ ["debug", "info"], 10 ≤ rank level := by decide +kernel
  have hlevel : (Entry.ofEvent event).level ∈ ["debug", "info"] := by
    cases event <;> simp [Entry.ofEvent]
  have hwrite : logJournal.write (.ofEvent event) = (Entry.ofEvent event).record .text :=
    if_pos (decide_eq_true (hranks _ hlevel))
  have hlength : (logJournal.bytes [event]).length =
      ((Entry.ofEvent event).record .text).utf8ByteSize := by
    rw [Journal.bytes, List.map_singleton, hwrite]
    simp [String.join]
  have htime : someTime.utf8ByteSize = 27 := by decide
  rw [hlength, Entry.record, if_pos rfl]
  simp only [String.utf8ByteSize_append]
  omega

theorem run_logVariables {templates : List String}
    (h : parse ("check" :: templates) = some (.run ⟨.check templates, none, [], none⟩)) :
    run .usual .usual emptyTemplate logVariables ("check" :: templates) =
      check (some logJournal) (Engine.fresh (logSetup [])) .success "" templates := by
  rw [run, show Packages.usual.arguments ("check" :: templates) = _ from h]
  exact run_eq_check (settings_logVariables _) openEngine_logSettings rfl

/-- The log file is fine as a template unless another template is reported on before it. -/
theorem run_check_log_reordered :
    (run .usual .usual emptyTemplate logVariables ["check", "a", "log"]).map
        (fun out => (out.exit, out.stdout, out.complaint)) =
      .ok (4, "a: ok\nlog: [0:0] template source exceeds maximum size of 1 bytes\n", none) ∧
    (run .usual .usual emptyTemplate logVariables ["check", "log", "a"]).map
        (fun out => (out.exit, out.stdout, out.complaint)) =
      .ok (0, "log: ok\na: ok\n", none) := by
  rw [run_logVariables (by decide +kernel), run_logVariables (by decide +kernel)]
  constructor
  · have hstep : (Engine.fresh (logSetup [])).step (.compile ["a"]) =
        (⟨.ok none, ⟨⟨[⟨"a", "", []⟩]⟩, .unlimited, #["a"], #[], #[.compiled "a" 0]⟩⟩,
          ⟨logSetup [], ⟨[⟨"a", "", []⟩]⟩⟩) := by
      cbv
    rw [check, hstep]
    dsimp only
    rw [noting_logSetup]
    generalize hbytes : logJournal.bytes #[Event.compiled "a" 0].toList = bytes
    have hsize : 1 < bytes.length := hbytes ▸ lt_length_bytes _
    obtain ⟨out, cache, hnext, -, ⟨hok, t, hcached | hcompiled⟩ | ⟨failure, herror, hcompiled⟩⟩ :=
      step_compile ⟨logSetup bytes, ⟨[⟨"a", "", []⟩]⟩⟩ "log"
    · simp [Cache.find?] at hcached
    · cases hcompiled.symm.trans (compiled_log hsize)
    · cases hcompiled.symm.trans (compiled_log hsize)
      rw [check, hnext]
      dsimp only
      rw [herror]
      rfl
  · have hstep : (Engine.fresh (logSetup [])).step (.compile ["log"]) =
        (⟨.ok none, ⟨⟨[⟨"log", "", []⟩]⟩, .unlimited, #["log"], #[], #[.compiled "log" 0]⟩⟩,
          ⟨logSetup [], ⟨[⟨"log", "", []⟩]⟩⟩) := by
      cbv
    rw [check, hstep]
    dsimp only
    rw [noting_logSetup]
    obtain ⟨out, cache, hnext, -, ⟨hok, -⟩ | ⟨failure, -, hcompiled⟩⟩ :=
      step_compile ⟨logSetup (logJournal.bytes #[Event.compiled "log" 0].toList),
        ⟨[⟨"log", "", []⟩]⟩⟩ "a"
    · rw [check, hnext]
      dsimp only
      rw [hok]
      rfl
    · cases hcompiled.symm.trans (compiled_empty _)

end LogFile

end Mustache.CommandLine
