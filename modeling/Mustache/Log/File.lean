import Mustache.Config.Settings
import Mustache.Log.Entry
import Mustache.Log.Level

/-! Log files. Entries are put behind what a file holds already, each as soon as it is made;
the file and its directories are made as needed. What is written of an entry is for the
logging package to say. -/

namespace Mustache.Log

open Files

/-- What a logger with a format and a threshold writes of an entry, which may be nothing. -/
abbrev Writer := LogFormat → Nat → Entry → String

/-- A log file that is open: where it is, and what is written to it of an entry. -/
structure Journal where
  place : Place
  write : Entry → String

def Journal.bytes (journal : Journal) (events : List Event) : List UInt8 :=
  (String.join (events.map fun event => journal.write (.ofEvent event))).toUTF8.data.toList

def Journal.note (journal : Journal) (events : List Event) (tree : FileTree) : FileTree :=
  tree.append journal.place (journal.bytes events)

/-- The log file of settings, and the tree in which it is open. There is none if it has no
name; then entries go to standard error. -/
def openJournal (writer : Writer) (tree : FileTree) (environment : Config.Environment)
    (logging : LogSettings) : Except PathFault (FileTree × Option Journal) :=
  if logging.file.isEmpty then .ok (tree, none)
  else match tree.openToAppend (Path.ofText logging.file) with
    | .error fault => .error fault
    | .ok (tree, place) =>
      .ok (tree, some ⟨place, writer logging.format (threshold environment logging.level.name)⟩)

end Mustache.Log
