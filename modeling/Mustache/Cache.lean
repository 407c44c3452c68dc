import Mustache.Loader
import Mustache.Template.Tree
import Mustache.Text.Encoding
import Mustache.Text.Quoted

/-! Compiled templates and their cache. A template is compiled when it is first asked
for and kept from then on; a failed compilation leaves no trace in the cache. -/

namespace Mustache

structure Template where
  identifier : String
  source : String
  nodes : List Template.Node
deriving Repr

namespace Template

def undecodable (encoding identifier : String) : TemplateError :=
  { trouble := .unreadable (some .malformed)
    detail := some ("could not decode template source as " ++ encoding)
    identifier := some identifier }

/-- An encoding of which nothing is known. -/
def unknownEncoding (encoding identifier : String) : TemplateError :=
  { trouble := .unreadable (some .unknownEncoding)
    detail := some ("unknown template encoding " ++ Text.quoted encoding)
    identifier := some identifier }

/-- The text of a source. No bytes at all are the empty text, whatever the encoding. -/
def decode (encoding identifier : String) (bytes : List UInt8) :
    Except TemplateError (List Char) :=
  if bytes.isEmpty then .ok []
  else match Text.Encoding.ofName? encoding with
    | none => .error (unknownEncoding encoding identifier)
    | some known =>
      match known.decode? bytes with
      | none => .error (undecodable encoding identifier)
      | some source => .ok source

def compile (encoding : String) (maxDepth : Nat) (identifier : String) (bytes : List UInt8) :
    Except TemplateError Template :=
  match decode encoding identifier bytes with
  | .error e => .error e
  | .ok source =>
    match parse maxDepth source with
    | .error e => .error ((TemplateError.ofSyntaxIn source e).inTemplate identifier)
    | .ok nodes => .ok ⟨identifier, String.ofList source, nodes⟩

end Template

/-- The templates compiled so far, in the order of their compilation. -/
structure Cache where
  templates : List Template
deriving Repr

namespace Cache

def empty : Cache := ⟨[]⟩

def find? (cache : Cache) (identifier : String) : Option Template :=
  cache.templates.find? fun t => t.identifier = identifier

def add (cache : Cache) (t : Template) : Cache := ⟨cache.templates ++ [t]⟩

def identifiers (cache : Cache) : List String := cache.templates.map Template.identifier

variable {cache : Cache} {identifier : String} {t : Template}

theorem find?_eq_none_iff : cache.find? identifier = none ↔ identifier ∉ cache.identifiers := by
  simp [find?, identifiers]

theorem identifier_of_find?_eq_some (h : cache.find? identifier = some t) :
    t.identifier = identifier := by
  simpa using List.find?_some h

theorem find?_add (cache : Cache) (t : Template) (identifier : String) :
    (cache.add t).find? identifier =
      (cache.find? identifier).or (if t.identifier = identifier then some t else none) := by
  simp [add, find?, List.find?_append, List.find?_singleton]

end Cache

end Mustache
