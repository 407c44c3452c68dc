import Mustache.Template.Tag

/-! Compiled templates. A template is a list of nodes in source order; a section
owns its children and keeps the text of its body, which a callable value receives
unrendered. -/

namespace Mustache.Template

/-- Literal text, a field `{{name}}`, a section with the text of its body, or the
inclusion of another template. -/
inductive Node
  | text (content : String)
  | field (name : String)
  | block (sense : Sense) (name body : String) (children : List Node)
  | inclusion (name : String)
deriving Repr, Inhabited

/-- Puts the literal text in front of a tag, which may be empty, before `nodes`. -/
def Node.consText (text : List Char) (nodes : List Node) : List Node :=
  if text.isEmpty then nodes else .text (String.ofList text) :: nodes

end Mustache.Template
