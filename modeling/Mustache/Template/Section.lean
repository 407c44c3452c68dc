import Mustache.Template.Tag

/-! The end of a section. The close tag that belongs to an open tag is found by
counting: each further open tag of the same name, of either sense, asks for one
more close tag of that name. Tags of other names are read over, and are looked at
only when the body is compiled. -/

namespace Mustache.Template

/-- The offset of a section's close tag and the span behind it. -/
structure SectionEnd where
  start : Nat
  rest : Span
deriving DecidableEq, Repr

namespace Span

/-- The close tag that leaves none of `pending + 1` sections called `name` open. -/
def sectionEnd (name : String) (pending : Nat) (s : Span) : Except SyntaxError SectionEnd :=
  match ho : s.nextOpening with
  | .error e => .error e
  | .ok none => .error ⟨.expectedEnd name, s.stop⟩
  | .ok (some o) =>
    match hf : o.finish with
    | .error e => .error e
    | .ok (label, rest) =>
      have := tag_length_lt ho hf
      match o.sigil with
      | .block _ => sectionEnd name (if label = name then pending + 1 else pending) rest
      | .close =>
        if label = name then
          match pending with
          | 0 => .ok ⟨o.offset, rest⟩
          | pending + 1 => sectionEnd name pending rest
        else sectionEnd name pending rest
      | _ => sectionEnd name pending rest
termination_by s.chars.length

theorem sectionEnd_length_lt {name : String} {pending : Nat} {s : Span} {e : SectionEnd}
    (h : s.sectionEnd name pending = .ok e) : e.rest.chars.length < s.chars.length := by
  fun_induction sectionEnd name pending s <;> simp_all <;> grind

end Span

structure SectionSpan where
  name : String
  body : Span
  rest : Span
deriving DecidableEq, Repr

/-- Reads the section that a tag opens. A line end directly behind its open tag or
its close tag is part of the tag. -/
def Opening.enclosed (o : Opening) : Except SyntaxError SectionSpan :=
  match o.finish with
  | .error e => .error e
  | .ok (name, behind) =>
    match behind.skipLineEnd.sectionEnd name 0 with
    | .error e => .error e
    | .ok close => .ok ⟨name, behind.skipLineEnd.upTo close.start, close.rest.skipLineEnd⟩

theorem Opening.enclosed_length_lt {s : Span} {o : Opening} {sec : SectionSpan}
    (ho : s.nextOpening = .ok (some o)) (h : o.enclosed = .ok sec) :
    sec.body.chars.length < s.chars.length ∧ sec.rest.chars.length < s.chars.length := by
  unfold enclosed at h
  split at h
  · simp at h
  · rename_i name behind hf
    split at h
    · simp at h
    · rename_i close he
      simp at h
      subst h
      have hlt := Span.tag_length_lt ho hf
      have hskip := behind.skipLineEnd_length_le
      have hbody := behind.skipLineEnd.upTo_length_le close.start
      have hrest := close.rest.skipLineEnd_length_le
      have hend := Span.sectionEnd_length_lt he
      constructor <;> simp only <;> omega

end Mustache.Template
