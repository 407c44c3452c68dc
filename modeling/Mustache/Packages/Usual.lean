import Mustache.CommandLine.Run
import Mustache.Packages.Arguments
import Mustache.Packages.Logging
import Mustache.Packages.Readers
import Mustache.Packages.Validation

/-! The packages that the program is run with. -/

namespace Mustache

def CommandLine.Packages.usual : Packages where
  validate := Config.validate
  read format text := (Data.readObject .usual format text).map Object.toDatum
  arguments := parse
  writer := Log.writer

end Mustache
