import Mustache.Config.Table
import Mustache.Loader
import Mustache.Template.Tree

/-! The settings of an engine, and what comes of checking a table of plain data for them.
The check itself is that of a package, which is given from outside. -/

namespace Mustache

open Data Files

/-- How much is logged. -/
inductive LogLevel
  | debug | info | warning | error
deriving DecidableEq, Repr

def LogLevel.name : LogLevel → String
  | .debug => "debug"
  | .info => "info"
  | .warning => "warning"
  | .error => "error"

/-- How log entries are written. -/
inductive LogFormat
  | json | text
deriving DecidableEq, Repr

def LogFormat.name : LogFormat → String
  | .json => "json"
  | .text => "text"

/-- Logging goes to a file, or to standard error if the file has no name. -/
structure LogSettings where
  level : LogLevel := .warning
  format : LogFormat := .text
  file : String := ""
deriving DecidableEq, Repr

structure Settings where
  searchPath : List Path := [.here]
  extension : String := ""
  encoding : String := "utf-8"
  maxSourceBytes : Nat := defaultMaxSourceBytes
  maxDepth : Nat := Template.defaultMaxDepth
  logging : LogSettings := {}
deriving DecidableEq, Repr

namespace Config

/-- An issue with a setting: the path of the setting, and the name of what is wrong. -/
structure Issue where
  place : List String
  kind : String
deriving DecidableEq, Repr

/-- The refusal of a table: its issues, and a text that reports them. -/
structure Rejection where
  issues : List Issue
  text : String
deriving DecidableEq, Repr

abbrev Validator := Table → Except Rejection Settings

end Config

end Mustache
