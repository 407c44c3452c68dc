import Mustache.Template.Node
import Mustache.Template.Section

/-! Compiling a span into nodes. The nodes of a span are read from left to right;
a section's children are the nodes of its body, which is a span of its own that
ends where the close tag starts. One line end directly behind a section tag, a
comment or an inclusion belongs to the tag. -/

namespace Mustache.Template

/-- The number of nested sections that a template may have unless told otherwise. -/
def defaultMaxDepth : Nat := 100

/-- The nodes of a span that `depth` sections enclose, put behind the nodes `done`,
the last of which comes first. At most `limit` sections may nest. -/
def buildOnto (limit depth : Nat) (done : List Node) (s : Span) :
    Except SyntaxError (List Node) :=
  match ho : s.nextOpening with
  | .error e => .error e
  | .ok none => .ok (Node.consText s.chars done).reverse
  | .ok (some o) =>
    let done := Node.consText o.text done
    match o.sigil with
    | .close => .error ⟨.strayEnd, o.offset⟩
    | .block sense =>
      if limit ≤ depth then .error ⟨.nestingTooDeep limit, o.offset⟩ else
      match hs : o.enclosed with
      | .error e => .error e
      | .ok sec =>
        have := o.enclosed_length_lt ho hs
        match buildOnto limit (depth + 1) [] sec.body with
        | .error e => .error e
        | .ok children =>
          buildOnto limit depth (.block sense sec.name sec.body.text children :: done) sec.rest
    | sigil =>
      match hf : o.finish with
      | .error e => .error e
      | .ok (label, behind) =>
        have := Span.tag_length_lt ho hf
        have := behind.skipLineEnd_length_le
        match sigil with
        | .field => buildOnto limit depth (.field label :: done) behind
        | .inclusion => buildOnto limit depth (.inclusion label :: done) behind.skipLineEnd
        | _ => buildOnto limit depth done behind.skipLineEnd
termination_by s.chars.length

/-- The nodes of a span that `depth` sections enclose. -/
def build (limit depth : Nat) (s : Span) : Except SyntaxError (List Node) :=
  buildOnto limit depth [] s

def parse (limit : Nat) (source : List Char) : Except SyntaxError (List Node) :=
  build limit 0 (Span.ofSource source)

end Mustache.Template
