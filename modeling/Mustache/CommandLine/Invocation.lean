import Mustache.Files.Path

/-! What a command line asks for. -/

namespace Mustache.CommandLine

open Files

/-- What is to be done. -/
inductive Command
  | check (templates : List String)
  | render (template : String) (data : Option Path)
deriving DecidableEq, Repr

/-- A command with the settings that take precedence over the configured ones. -/
structure Invocation where
  command : Command
  config : Option Path
  searchPath : List Path
  extension : Option String
deriving DecidableEq, Repr

inductive Request
  | help
  | run (invocation : Invocation)
deriving DecidableEq, Repr

end Mustache.CommandLine
