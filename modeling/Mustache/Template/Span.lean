import Mustache.Template.Defect

/-! A span is a stretch of template text together with the offset at which it
begins. Parsing works on spans only, so what stands outside a span cannot change
what is made of it, and offsets stay those of the whole source. -/

namespace Mustache.Template

/-- A stretch of text and the offset of its first character. -/
structure Span where
  start : Nat
  chars : List Char
deriving DecidableEq, Repr

namespace Span

def ofSource (source : List Char) : Span := ⟨0, source⟩

/-- The characters of `source` from offset `start` up to offset `stop`. -/
def between (source : List Char) (start stop : Nat) : Span :=
  ⟨min start stop, (source.take stop).drop start⟩

def stop (s : Span) : Nat := s.start + s.chars.length

def upTo (s : Span) (stop : Nat) : Span := ⟨s.start, s.chars.take (stop - s.start)⟩

def text (s : Span) : String := String.ofList s.chars

def skipLineEnd (s : Span) : Span :=
  match s.chars with
  | '\n' :: rest => ⟨s.start + 1, rest⟩
  | '\r' :: '\n' :: rest => ⟨s.start + 2, rest⟩
  | _ => s

theorem skipLineEnd_length_le (s : Span) : s.skipLineEnd.chars.length ≤ s.chars.length := by
  unfold skipLineEnd
  split
  · rename_i rest h
    rw [h]
    exact Nat.le_succ _
  · rename_i rest h
    rw [h]
    exact Nat.le_add_right _ 2
  · exact Nat.le_refl _

theorem skipLineEnd_stop (s : Span) : s.skipLineEnd.stop = s.stop := by
  unfold skipLineEnd
  split
  · rename_i rest h
    simp only [stop, h, List.length_cons]
    omega
  · rename_i rest h
    simp only [stop, h, List.length_cons]
    omega
  · rfl

theorem upTo_length_le (s : Span) (n : Nat) : (s.upTo n).chars.length ≤ s.chars.length :=
  List.length_take_le' ..

end Span

end Mustache.Template
