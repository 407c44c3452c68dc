import Mustache.Config.Settings

/-! The schema of settings: their keys in order, their defaults and the bounds of numbers. A
table is checked setting by setting; each that is missing takes its default, and the issues with
the others are gathered in the order of the settings. Keys that name no setting are ignored.
What passes for a value of each type is for a package to say. -/

namespace Mustache.Config

open Data Files

/-- Nesting beyond this depth cannot be asked for. -/
def maxDepthLimit : Nat := 200

/-- A checked value, or the issues with it. -/
abbrev Checked (α : Type) := Except (List Issue) α

/-- The issue as it is seen from the table that holds the value under a key. -/
def Issue.under (key : String) (issue : Issue) : Issue :=
  { issue with place := key :: issue.place }

/-- The checks of single values, by the types of the settings, and what is reported of a value
that stands where a table should. The places of issues are seen from the value. -/
structure Checks where
  paths : Document → Checked (List Path)
  text : Document → Checked String
  positive : Option Nat → Document → Checked Nat
  level : Document → Checked LogLevel
  format : Document → Checked LogFormat
  noTable : Document → List Issue

/-- A single directory stands for a list of one. -/
def coerceSearchPath : Document → Document
  | .text s => .list [.text s]
  | d => d

/-- The check of a setting that may be missing. -/
def checkField {α : Type} (key : String) (table : Table) (default : α)
    (check : Document → Checked α) : Checked α :=
  match Fields.find? key table with
  | none => .ok default
  | some d => (check d).mapError (List.map (Issue.under key))

/-- Two checks, of which both report their issues. -/
def both {α β γ : Type} (f : α → β → γ) : Checked α → Checked β → Checked γ
  | .ok a, .ok b => .ok (f a b)
  | .error issues, .ok _ => .error issues
  | .ok _, .error issues => .error issues
  | .error first, .error second => .error (first ++ second)

namespace Checks

variable (checks : Checks)

def loggingTable (table : Table) : Checked LogSettings :=
  both (fun (level, format) file => ⟨level, format, file⟩)
    (both Prod.mk (checkField "level" table .warning checks.level)
      (checkField "format" table .text checks.format))
    (checkField "file" table "" checks.text)

def logging : Document → Checked LogSettings
  | .table entries => checks.loggingTable entries
  | d => .error (checks.noTable d)

def table (table : Table) : Checked Settings :=
  let paths := checkField "search_path" table [.here] (checks.paths ∘ coerceSearchPath)
  let extension := checkField "extension" table "" checks.text
  let encoding := checkField "encoding" table "utf-8" checks.text
  let bytes := checkField "max_source_bytes" table defaultMaxSourceBytes (checks.positive none)
  let depth := checkField "max_depth" table Template.defaultMaxDepth
    (checks.positive (some maxDepthLimit))
  let logging := checkField "logging" table {} checks.logging
  let texts := both (fun p (e, c) => (p, e, c)) paths (both Prod.mk extension encoding)
  let numbers := both Prod.mk bytes depth
  both (fun ((p, e, c), (b, d)) l => ⟨p, e, c, b, d, l⟩) (both Prod.mk texts numbers) logging

end Checks

end Mustache.Config
