/-! Line ends. Files may end their lines with a carriage return, a line feed or both;
readers of lines see only line feeds. -/

namespace Mustache.Text

def joinLineEnds : List Char → List Char
  | '\r' :: '\n' :: rest => '\n' :: joinLineEnds rest
  | c :: rest => c :: joinLineEnds rest
  | [] => []

def unifyLineEnds (text : List Char) : List Char :=
  (joinLineEnds text).map fun c => if c == '\r' then '\n' else c

end Mustache.Text
