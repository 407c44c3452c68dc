import Mustache.Data.File
import Mustache.Data.Json
import Mustache.Data.Toml.Reader
import Mustache.Host
import Mustache.Packages.Yaml.Reader

/-! The readers of data files that the program is run with. -/

namespace Mustache.Data

/-- The strict reader of JSON texts. The number of lists and tables within each other is
limited whatever the depth of the calls. -/
def Json.strict : Json.Dialect := ⟨false, false, false, 1024⟩

/-- Reads a text in one of the formats. The line ends of a text are of any kind, except
in JSON, where they are blanks anyway. -/
def readObject (host : Host) : Reader Object
  | .json, text => (Json.parse Json.strict text).map Document.toObject
  | .toml, text => (Toml.parse host.textLevels (Text.unifyLineEnds text)).map fun entries =>
      Document.toObject (.table entries)
  | .yaml, text => Yaml.parse (Text.unifyLineEnds text)

end Mustache.Data
