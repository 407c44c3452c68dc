/-! What can be wrong with a template source. A defect is reported at an offset,
counted in characters from the start of the whole source; lines and columns are
derived from it later. -/

namespace Mustache.Template

/-- The ways in which a source can be malformed. -/
inductive Defect
  | expectedOpen
  | expectedClose
  | expectedEnd (name : String)
  | strayEnd
  | lineFeedInTag
  | endOfSource
  | nestingTooDeep (limit : Nat)
deriving DecidableEq, Repr

/-- The defects that the text of a single tag shows, whatever surrounds it. -/
def Defect.IsLexical : Defect → Prop
  | .expectedOpen | .expectedClose | .lineFeedInTag | .endOfSource => True
  | .expectedEnd _ | .strayEnd | .nestingTooDeep _ => False

instance : DecidablePred Defect.IsLexical := fun d => by
  cases d <;> unfold Defect.IsLexical <;> infer_instance

structure SyntaxError where
  defect : Defect
  offset : Nat
deriving DecidableEq, Repr

/-- The same defect with its offset counted from `n` characters further ahead. -/
def SyntaxError.shift (n : Nat) (e : SyntaxError) : SyntaxError := { e with offset := n + e.offset }

end Mustache.Template
