import Mustache.Packages.Validation
import Mustache.Proofs.Config.Lookup

/-! Tables that pass validation. What is taken from the package is stated as laws: it goes over
the schema setting by setting, and its checks of single values take what they are documented to
take. A table passes exactly if each setting that is found in it passes the check of this
setting, and if what holds the logging settings is a table; each setting then has the checked
value, or its default if nothing is found. -/

namespace Mustache.Config

open Data Files

/-- The value that a setting takes: the checked one, or the default if there is none. -/
def Takes {α : Type} (check : Document → Checked α) (default : α) (found : Option Document)
    (value : α) : Prop :=
  match found with
  | none => value = default
  | some d => check d = .ok value

/-- A validator that makes these checks of each setting by itself; how it words its reports is
its own affair. -/
def Validator.GoesBy (validate : Validator) (checks : Checks) : Prop :=
  ∀ table, (validate table).mapError Rejection.issues = checks.table table

/-- What is documented of the checks of single values. -/
structure Checks.Lawful (checks : Checks) : Prop where
  text : ∀ s, checks.text (.text s) = .ok s
  notAText : ∀ d, (∀ s, d ≠ .text s) → checks.text d = .error [⟨[], "string_type"⟩]
  paths : ∀ texts : List String,
    checks.paths (.list (texts.map .text)) = .ok (texts.map Path.ofText)
  notAList : ∀ d, (∀ items, d ≠ .list items) → checks.paths d = .error [⟨[], "tuple_type"⟩]
  positive : ∀ limit entries, checks.positive limit (.table entries) = .error [⟨[], "int_type"⟩]
  level : ∀ entries, checks.level (.table entries) = .error [⟨[], "enum"⟩]
  format : ∀ entries, checks.format (.table entries) = .error [⟨[], "enum"⟩]

/-- What passes validation, setting by setting. -/
structure Passes (checks : Checks) (table : Table) (settings : Settings) : Prop where
  searchPath : Takes (checks.paths ∘ coerceSearchPath) [.here]
    (lookup? ["search_path"] (.table table)) settings.searchPath
  extension : Takes checks.text "" (lookup? ["extension"] (.table table)) settings.extension
  encoding : Takes checks.text "utf-8" (lookup? ["encoding"] (.table table)) settings.encoding
  maxSourceBytes : Takes (checks.positive none) defaultMaxSourceBytes
    (lookup? ["max_source_bytes"] (.table table)) settings.maxSourceBytes
  maxDepth : Takes (checks.positive (some maxDepthLimit)) Template.defaultMaxDepth
    (lookup? ["max_depth"] (.table table)) settings.maxDepth
  logging : ∀ d, lookup? ["logging"] (.table table) = some d → d.IsTable
  level : Takes checks.level .warning (lookup? ["logging", "level"] (.table table))
    settings.logging.level
  format : Takes checks.format .text (lookup? ["logging", "format"] (.table table))
    settings.logging.format
  file : Takes checks.text "" (lookup? ["logging", "file"] (.table table)) settings.logging.file

variable {α β γ : Type} {validate : Validator} {checks : Checks} {table : Table}
  {settings : Settings}

theorem both_eq_ok_iff {f : α → β → γ} {x : Checked α} {y : Checked β} {c : γ} :
    both f x y = .ok c ↔ ∃ a b, x = .ok a ∧ y = .ok b ∧ f a b = c := by
  rcases x with issues | a <;> rcases y with issues' | b <;> simp [both]

theorem mapError_eq_ok_iff {ε ε' : Type} {f : ε → ε'} {x : Except ε α} {a : α} :
    x.mapError f = .ok a ↔ x = .ok a := by
  cases x <;> constructor <;> rintro ⟨⟩
  · rfl
  · rfl

theorem lookup?_single (key : String) (table : Table) :
    lookup? [key] (.table table) = Fields.find? key table := by
  rw [lookup?_cons]
  cases Fields.find? key table <;> simp

theorem checkField_eq_ok_iff {key : String} {default value : α} {check : Document → Checked α} :
    checkField key table default check = .ok value ↔
      Takes check default (lookup? [key] (.table table)) value := by
  rw [checkField, lookup?_single]
  cases Fields.find? key table with
  | none => simp [Takes, eq_comm]
  | some d => simp [Takes, mapError_eq_ok_iff]

namespace Checks

theorem loggingTable_eq_ok_iff {logging : LogSettings} :
    checks.loggingTable table = .ok logging ↔
      Takes checks.level .warning (lookup? ["level"] (.table table)) logging.level ∧
        Takes checks.format .text (lookup? ["format"] (.table table)) logging.format ∧
        Takes checks.text "" (lookup? ["file"] (.table table)) logging.file := by
  simp only [loggingTable, both_eq_ok_iff, checkField_eq_ok_iff]
  constructor
  · rintro ⟨_, file, ⟨level, format, hl, hf, rfl⟩, hfile, rfl⟩
    exact ⟨hl, hf, hfile⟩
  · rintro ⟨hl, hf, hfile⟩
    exact ⟨_, _, ⟨_, _, hl, hf, rfl⟩, hfile, rfl⟩

theorem takes_logging_iff {logging : LogSettings} :
    Takes checks.logging {} (lookup? ["logging"] (.table table)) logging ↔
      (∀ d, lookup? ["logging"] (.table table) = some d → d.IsTable) ∧
        Takes checks.level .warning (lookup? ["logging", "level"] (.table table)) logging.level ∧
        Takes checks.format .text (lookup? ["logging", "format"] (.table table)) logging.format ∧
        Takes checks.text "" (lookup? ["logging", "file"] (.table table)) logging.file := by
  simp only [lookup?_cons "logging"]
  rcases Fields.find? "logging" table with _ | d
  · constructor
    · rintro ⟨⟩
      exact ⟨nofun, rfl, rfl, rfl⟩
    · rintro ⟨-, hl, hf, hfile⟩
      obtain ⟨level, format, file⟩ := logging
      cases hl
      cases hf
      cases hfile
      rfl
  by_cases hd : d.IsTable
  · obtain ⟨inner, rfl⟩ := hd
    have htable : ∀ d, some (Document.table inner) = some d → d.IsTable :=
      fun d hd => ⟨inner, (Option.some.inj hd).symm⟩
    exact loggingTable_eq_ok_iff.trans (and_iff_right htable).symm
  · refine iff_of_false (fun h => ?_) fun h => hd (h.1 d rfl)
    cases d with
    | table inner => exact hd ⟨inner, rfl⟩
    | _ => cases h

theorem table_eq_ok_iff : checks.table table = .ok settings ↔ Passes checks table settings := by
  simp only [Checks.table, both_eq_ok_iff, checkField_eq_ok_iff, takes_logging_iff]
  constructor
  · rintro ⟨_, logging, ⟨_, _, ⟨paths, _, hp, ⟨_, _, he, hc, rfl⟩, rfl⟩, ⟨_, _, hb, hd, rfl⟩, rfl⟩,
      ⟨ht, hl, hf, hfile⟩, rfl⟩
    exact ⟨hp, he, hc, hb, hd, ht, hl, hf, hfile⟩
  · rintro ⟨hp, he, hc, hb, hd, ht, hl, hf, hfile⟩
    exact ⟨_, _, ⟨_, _, ⟨_, _, hp, ⟨_, _, he, hc, rfl⟩, rfl⟩, ⟨_, _, hb, hd, rfl⟩, rfl⟩,
      ⟨ht, hl, hf, hfile⟩, rfl⟩

end Checks

theorem Validator.GoesBy.eq_ok_iff (h : validate.GoesBy checks) :
    validate table = .ok settings ↔ Passes checks table settings := by
  rw [← Checks.table_eq_ok_iff, ← h, mapError_eq_ok_iff]

/-! ### The package that the program is run with -/

theorem goesBy_validate : Validator.GoesBy Config.validate Checks.usual := by
  intro table
  rw [Config.validate]
  cases Checks.usual.table table <;> rfl

theorem checkPaths_texts (n : Nat) (texts : List String) :
    checkPaths n (texts.map .text) = .ok (texts.map Path.ofText) := by
  induction texts generalizing n with
  | nil => rfl
  | cons s texts ih =>
    rw [List.map_cons, checkPaths, ih]
    rfl

theorem lawful_usual : Checks.usual.Lawful where
  text _ := rfl
  notAText d h := by
    cases d with
    | text s => exact absurd rfl (h s)
    | _ => rfl
  paths texts := checkPaths_texts 0 texts
  notAList d h := by
    cases d with
    | list items => exact absurd rfl (h items)
    | _ => rfl
  positive _ _ := rfl
  level _ := rfl
  format _ := rfl

end Mustache.Config
