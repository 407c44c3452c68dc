import Mustache.Config.Environment

/-! Log levels. Each has a name and a rank; entries of a rank below a threshold are
left out. -/

namespace Mustache.Log

def ranks : List (String × Nat) :=
  [("DEBUG", 10), ("INFO", 20), ("WARNING", 30), ("WARN", 30), ("ERROR", 40), ("CRITICAL", 50),
    ("FATAL", 50), ("NOTSET", 0)]

def defaultRank : Nat := 20

/-- The capital of an ASCII letter, and of the two other letters with an ASCII capital:
the dotless i and the long s. -/
def capital (c : Char) : Char :=
  if c == '\u0131' then 'I' else if c == '\u017f' then 'S' else c.toUpper

def rank (level : String) : Nat := (ranks.lookup (level.map capital)).getD defaultRank

/-- The variable that asks for all entries, whatever the settings say. -/
def debugVariable : String := "STACHE_DEBUG"

def threshold (environment : Config.Environment) (level : String) : Nat :=
  match Fields.find? debugVariable (Fields.ofList environment) with
  | some "" | none => rank level
  | some _ => rank "debug"

end Mustache.Log
