import Mustache.Template.Span

/-! Tags. A tag starts with two open braces and a sigil, the character that says
what kind of tag it is, and ends with two close braces. Reading one takes two
steps, since a reader of sections has to look at the sigil before the rest:
`Span.nextOpening` finds the next pair of open braces, and `Opening.finish` reads
from the sigil through the close braces. Both leave a shorter span behind. -/

namespace Mustache.Template

/-- A normal section is shown for a value, an inverted one for want of it. -/
inductive Sense
  | normal | inverted
deriving DecidableEq, Repr

inductive Sigil
  | field | block (sense : Sense) | close | comment | inclusion
deriving DecidableEq, Repr

/-- The kind of tag that a character behind the open braces announces. -/
def Sigil.ofChar? : Char → Option Sigil
  | '#' => some (.block .normal)
  | '^' => some (.block .inverted)
  | '/' => some .close
  | '!' => some .comment
  | '>' => some .inclusion
  | _ => none

/-- A pair of open braces: the literal text in front of it, its offset, its sigil,
and the span behind the sigil. -/
structure Opening where
  text : List Char
  offset : Nat
  sigil : Sigil
  rest : Span
deriving DecidableEq, Repr

/-- The part of a text without surrounding spaces; other blanks stay. -/
def trimSpaces (text : List Char) : List Char :=
  ((text.dropWhile (· == ' ')).reverse.dropWhile (· == ' ')).reverse

namespace Span

/-- The first pair of open braces, or `none` if the span holds no open brace. An
open brace has to be one of a pair, and something has to follow the pair. -/
def nextOpening (s : Span) : Except SyntaxError (Option Opening) :=
  let text := s.chars.takeWhile (· != '{')
  let offset := s.start + text.length
  match s.chars.dropWhile (· != '{') with
  | [] => .ok none
  | _ :: '{' :: [] => .error ⟨.endOfSource, s.stop⟩
  | _ :: '{' :: c :: rest =>
    match Sigil.ofChar? c with
    | some sigil => .ok (some ⟨text, offset, sigil, ⟨offset + 3, rest⟩⟩)
    | none => .ok (some ⟨text, offset, .field, ⟨offset + 2, c :: rest⟩⟩)
  | _ => .error ⟨.expectedOpen, offset⟩

/-- The span behind the `n` close braces with which it has to begin. -/
def closeBraces : Nat → Span → Except SyntaxError Span
  | 0, s => .ok s
  | n + 1, ⟨start, '}' :: rest⟩ => closeBraces n ⟨start + 1, rest⟩
  | _ + 1, s => .error ⟨.expectedClose, s.start⟩

/-- Reads an identifier and the `closing` close braces behind it. The identifier
ends at the first close brace and holds no line feed. -/
def scanTag (closing : Nat) (s : Span) : Except SyntaxError (String × Span) :=
  let name := s.chars.takeWhile fun c => c != '}' && c != '\n'
  let rest : Span := ⟨s.start + name.length, s.chars.drop name.length⟩
  match rest.chars with
  | [] => .error ⟨.expectedClose, s.stop⟩
  | '\n' :: _ => .error ⟨.lineFeedInTag, rest.start⟩
  | _ => (rest.closeBraces closing).map fun behind => (String.ofList (trimSpaces name), behind)

def skipComment (s : Span) : Except SyntaxError Span :=
  go s.start s.chars
where
  go (start : Nat) : List Char → Except SyntaxError Span
    | '}' :: '}' :: rest => .ok ⟨start + 2, rest⟩
    | _ :: rest => go (start + 1) rest
    | [] => .error ⟨.expectedClose, start⟩

end Span

/-- Reads a tag from its sigil to its end: its identifier, which is empty for a
comment, and the span behind it. -/
def Opening.finish (o : Opening) : Except SyntaxError (String × Span) :=
  match o.sigil with
  | .comment => o.rest.skipComment.map fun behind => ("", behind)
  | _ => o.rest.scanTag 2

namespace Span

theorem nextOpening_length_lt {s : Span} {o : Opening} (h : s.nextOpening = .ok (some o)) :
    o.rest.chars.length < s.chars.length := by
  have hle := (List.dropWhile_suffix (· != '{') (l := s.chars)).length_le
  unfold nextOpening at h
  split at h
  · simp at h
  · simp at h
  · rename_i heq
    rw [heq] at hle
    split at h <;> (simp at h; subst h; simp at hle ⊢; omega)
  · simp at h

theorem closeBraces_length_le {n : Nat} {s r : Span} (h : s.closeBraces n = .ok r) :
    r.chars.length ≤ s.chars.length := by
  fun_induction closeBraces n s with
  | case1 => simp_all
  | case2 n start rest ih => exact Nat.le_succ_of_le (ih h)
  | case3 => simp at h

theorem scanTag_length_le {n : Nat} {s r : Span} {name : String}
    (h : s.scanTag n = .ok (name, r)) : r.chars.length ≤ s.chars.length := by
  unfold scanTag at h
  simp only at h
  split at h
  · simp at h
  · simp at h
  · cases hc : closeBraces n
      ⟨s.start + (s.chars.takeWhile fun c => c != '}' && c != '\n').length,
        s.chars.drop (s.chars.takeWhile fun c => c != '}' && c != '\n').length⟩ with
    | error e => simp [hc, Except.map] at h
    | ok behind =>
      have := closeBraces_length_le hc
      simp [hc, Except.map] at h
      obtain ⟨_, rfl⟩ := h
      exact Nat.le_trans this (by simp)

theorem skipComment_go_length_le {start : Nat} {cs : List Char} {r : Span}
    (h : skipComment.go start cs = .ok r) : r.chars.length ≤ cs.length := by
  fun_induction skipComment.go start cs with
  | case1 => simp at h; subst h; simp; omega
  | case2 start c rest _ ih => exact Nat.le_succ_of_le (ih h)
  | case3 => simp at h

end Span

theorem Opening.finish_length_le {o : Opening} {label : String} {r : Span}
    (h : o.finish = .ok (label, r)) : r.chars.length ≤ o.rest.chars.length := by
  unfold finish at h
  split at h
  · cases hc : o.rest.skipComment with
    | error e => simp [hc, Except.map] at h
    | ok behind =>
      simp [hc, Except.map] at h
      obtain ⟨_, rfl⟩ := h
      exact Span.skipComment_go_length_le hc
  · exact Span.scanTag_length_le h

theorem Span.tag_length_lt {s r : Span} {o : Opening} {label : String}
    (ho : s.nextOpening = .ok (some o)) (hf : o.finish = .ok (label, r)) :
    r.chars.length < s.chars.length :=
  Nat.lt_of_le_of_lt (o.finish_length_le hf) (nextOpening_length_lt ho)

end Mustache.Template
