import Mathlib.Data.List.TakeWhile
import Mathlib.Tactic.Common
import Mustache.Template.Tree

/-! Sources as sequences of pieces. A piece is a run of literal text or one whole tag,
comments included, with the line end that is dropped behind it. A source that reads
without a lexical defect is the concatenation of its pieces in one way only, each
piece being what reads off the front of the text from it on. The lemmas here say that
`Span.nextOpening` and `Opening.finish` read off exactly such tags. -/

namespace Mustache.Template

/-- The character that announces a kind of tag; a field has none. -/
def Sigil.chars : Sigil → List Char
  | .field => []
  | .block .normal => ['#']
  | .block .inverted => ['^']
  | .close => ['/']
  | .comment => ['!']
  | .inclusion => ['>']

/-- Every tag but a field takes in a line end directly behind it. -/
def Sigil.takesLineEnd : Sigil → Bool
  | .field => false
  | _ => true

/-- What may stand between a sigil and the first pair of close braces. A comment may
hold anything but such a pair; other tags hold no close brace and no line feed, and a
field does not begin with the sigil of another tag. -/
def Sigil.Admits : Sigil → List Char → Prop
  | .comment, inner => ¬ ['}', '}'] <:+: inner ++ ['}']
  | .field, inner => ('}' ∉ inner ∧ '\n' ∉ inner) ∧ ∀ c ∈ inner.head?, Sigil.ofChar? c = none
  | _, inner => '}' ∉ inner ∧ '\n' ∉ inner

/-- The identifier of a tag, which is empty for a comment. -/
def Sigil.label : Sigil → List Char → String
  | .comment, _ => ""
  | _, inner => String.ofList (trimSpaces inner)

def leadingLineEnd : List Char → List Char
  | '\n' :: _ => ['\n']
  | '\r' :: '\n' :: _ => ['\r', '\n']
  | _ => []

/-- A run of literal text, or a tag with what stands between its sigil and its close
braces and with the line end that is dropped behind it. -/
inductive Piece
  | text (content : List Char)
  | tag (sigil : Sigil) (inner lineEnd : List Char)
deriving DecidableEq, Repr

namespace Piece

/-- The stretch of source that a piece is. -/
def written : Piece → List Char
  | .text content => content
  | .tag sigil inner lineEnd => '{' :: '{' :: (sigil.chars ++ inner ++ '}' :: '}' :: lineEnd)

/-- The piece reads off in front of `rest`: a text is not empty and goes on to the next
open brace, and a tag takes in a whole line end if its kind does and there is one. -/
def Before : Piece → List Char → Prop
  | .text content, rest => content ≠ [] ∧ '{' ∉ content ∧ ∀ c ∈ rest.head?, c = '{'
  | .tag sigil inner lineEnd, rest => sigil.Admits inner ∧
      lineEnd = if sigil.takesLineEnd then leadingLineEnd (lineEnd ++ rest) else []

theorem written_ne_nil {p : Piece} {rest : List Char} (h : p.Before rest) : p.written ≠ [] := by
  cases p with
  | text content => exact h.1
  | tag sigil inner lineEnd => simp [written]

end Piece

/-- The source that pieces make up. -/
def written (ps : List Piece) : List Char := ps.flatMap Piece.written

/-- Each piece is what reads off the front of the text from it on. -/
def WellCut : List Piece → Prop
  | [] => True
  | p :: ps => p.Before (written ps) ∧ WellCut ps

@[simp] theorem written_nil : written [] = [] := rfl

@[simp] theorem written_cons (p : Piece) (ps : List Piece) :
    written (p :: ps) = p.written ++ written ps := rfl

@[simp] theorem written_append (ps qs : List Piece) :
    written (ps ++ qs) = written ps ++ written qs := List.flatMap_append

theorem wellCut_cons (p : Piece) (ps : List Piece) :
    WellCut (p :: ps) ↔ p.Before (written ps) ∧ WellCut ps := Iff.rfl

/-! ### Cutting at tags -/

theorem leadingLineEnd_append_brace (front back : List Char) :
    leadingLineEnd (front ++ '{' :: back) = leadingLineEnd front := by
  match front with
  | [] => rfl
  | [c] => simp only [List.cons_append, List.nil_append]; unfold leadingLineEnd; split <;> simp_all
  | c :: d :: rest => simp only [List.cons_append]; unfold leadingLineEnd; split <;> simp_all

theorem Piece.before_append_brace (p : Piece) (front back : List Char) :
    p.Before (front ++ '{' :: back) ↔ p.Before front := by
  cases p with
  | text content => cases front <;> simp [Piece.Before]
  | tag sigil inner lineEnd =>
    simp only [Piece.Before]
    rw [← List.append_assoc, leadingLineEnd_append_brace]

/-- A sequence of pieces may be cut in front of a tag, and put together there. -/
theorem wellCut_append_tag (ps qs : List Piece) (sigil : Sigil) (inner lineEnd : List Char) :
    WellCut (ps ++ .tag sigil inner lineEnd :: qs) ↔
      WellCut ps ∧ WellCut (.tag sigil inner lineEnd :: qs) := by
  induction ps with
  | nil => simp [WellCut]
  | cons p ps ih =>
    have hp := p.before_append_brace (written ps)
      ('{' :: (sigil.chars ++ inner ++ '}' :: '}' :: lineEnd) ++ written qs)
    simp only [List.cons_append, WellCut, ih]
    rw [written_append, written_cons, Piece.written, List.cons_append, hp, and_assoc]

/-! ### Reading a tag -/

theorem map_eq_ok_iff {ε α β : Type} {f : α → β} {x : Except ε α} {b : β} :
    x.map f = .ok b ↔ ∃ a, x = .ok a ∧ f a = b := by
  cases x <;> simp [Except.map]

theorem Sigil.ofChar?_eq_some_iff {c : Char} {sigil : Sigil} :
    Sigil.ofChar? c = some sigil ↔ sigil.chars = [c] := by
  constructor
  · unfold Sigil.ofChar?
    split <;> rintro ⟨⟩ <;> rfl
  · rcases sigil with _ | ⟨_ | _⟩ | _ | _ | _ <;> rintro ⟨⟩ <;> rfl

theorem Span.nextOpening_append {front : List Char} (h : '{' ∉ front) (start : Nat)
    (cs : List Char) :
    (⟨start, front ++ cs⟩ : Span).nextOpening =
      (⟨start + front.length, cs⟩ : Span).nextOpening.map
        (Option.map fun o => { o with text := front ++ o.text }) := by
  have hfront : ∀ c ∈ front, (c != '{') = true := by
    intro c hc
    simp only [bne_iff_ne]
    rintro rfl
    exact h hc
  unfold nextOpening
  simp only [List.takeWhile_append_of_pos hfront, List.dropWhile_append_of_pos hfront,
    List.length_append, Span.stop, Nat.add_assoc]
  split
  · rfl
  · rfl
  · split <;> rfl
  · rfl

theorem Span.nextOpening_of_not_mem {s : Span} (h : '{' ∉ s.chars) :
    s.nextOpening = .ok none := by
  have := nextOpening_append h s.start []
  rwa [List.append_nil] at this

theorem Span.nextOpening_braces (start : Nat) (c : Char) (rest : List Char) :
    (⟨start, '{' :: '{' :: c :: rest⟩ : Span).nextOpening =
      .ok (some (match Sigil.ofChar? c with
        | some sigil => ⟨[], start, sigil, ⟨start + 3, rest⟩⟩
        | none => ⟨[], start, .field, ⟨start + 2, c :: rest⟩⟩)) := by
  cases h : Sigil.ofChar? c <;> simp [nextOpening, h]

theorem Span.nextOpening_tag {sigil : Sigil} {inner : List Char} (h : sigil.Admits inner)
    (start : Nat) (rest : List Char) :
    (⟨start, '{' :: '{' :: (sigil.chars ++ inner ++ '}' :: '}' :: rest)⟩ : Span).nextOpening =
      .ok (some ⟨[], start, sigil,
        ⟨start + 2 + sigil.chars.length, inner ++ '}' :: '}' :: rest⟩⟩) := by
  cases sigil with
  | field =>
    obtain ⟨-, h⟩ := h
    cases inner with
    | nil => simp [Span.nextOpening, Sigil.chars, Sigil.ofChar?]
    | cons c cs =>
      have hc : Sigil.ofChar? c = none := h c rfl
      simp [Span.nextOpening, Sigil.chars, hc]
  | block sense => cases sense <;> simp [Span.nextOpening, Sigil.chars, Sigil.ofChar?]
  | close | comment | inclusion => simp [Span.nextOpening, Sigil.chars, Sigil.ofChar?]

/-- What an opening that was found says about the text of the span. -/
theorem Span.nextOpening_eq_some {s : Span} {o : Opening} (h : s.nextOpening = .ok (some o)) :
    '{' ∉ o.text ∧ o.offset = s.start + o.text.length ∧
      s.chars = o.text ++ '{' :: '{' :: (o.sigil.chars ++ o.rest.chars) ∧
      o.rest.start = o.offset + 2 + o.sigil.chars.length ∧
      (o.sigil = .field → ∀ c ∈ o.rest.chars.head?, Sigil.ofChar? c = none) := by
  obtain ⟨start, cs⟩ := s
  by_cases hmem : '{' ∈ cs
  · obtain ⟨front, back, rfl, hfront⟩ := List.eq_append_cons_of_mem hmem
    rw [nextOpening_append hfront] at h
    rcases back with _ | ⟨b, _ | ⟨c, rest⟩⟩
    · simp [nextOpening, Except.map] at h
    · by_cases hb : b = '{' <;> simp [nextOpening, Except.map, hb] at h
    · by_cases hb : b = '{'
      swap
      · simp [nextOpening, Except.map, hb] at h
      subst hb
      rw [nextOpening_braces] at h
      cases hsigil : Sigil.ofChar? c with
      | none =>
        simp only [hsigil, Except.map, Option.map_some, Except.ok.injEq, Option.some.injEq] at h
        subst h
        simp [Sigil.chars, hfront, hsigil]
      | some sigil =>
        simp only [hsigil, Except.map, Option.map_some, Except.ok.injEq, Option.some.injEq] at h
        rw [Sigil.ofChar?_eq_some_iff] at hsigil
        subst h
        refine ⟨by simpa using hfront, by simp, by simp [hsigil], by simp [hsigil], ?_⟩
        rintro rfl
        simp [Sigil.chars] at hsigil
  · rw [nextOpening_of_not_mem hmem] at h
    simp at h

theorem closePair_infix_cons {c : Char} {inner : List Char} :
    ['}', '}'] <:+: (c :: inner) ++ ['}'] ↔
      (c = '}' ∧ ∀ d ∈ inner.head?, d = '}') ∨ ['}', '}'] <:+: inner ++ ['}'] := by
  rw [List.cons_append, List.infix_cons_iff]
  cases inner <;> simp [List.cons_prefix_cons, eq_comm]

theorem Span.skipComment_go_eq_ok_iff {start : Nat} {cs : List Char} {r : Span} :
    skipComment.go start cs = .ok r ↔ ∃ inner, ¬ ['}', '}'] <:+: inner ++ ['}'] ∧
      cs = inner ++ '}' :: '}' :: r.chars ∧ r.start = start + inner.length + 2 := by
  fun_induction skipComment.go start cs with
  | case1 start rest =>
    constructor
    · rintro h
      simp only [Except.ok.injEq] at h
      subst h
      exact ⟨[], by decide, rfl, rfl⟩
    · rintro ⟨inner, hnot, hcs, hstart⟩
      cases inner with
      | nil =>
        cases r
        simp_all
      | cons c inner =>
        -- a longer stretch would hold the very pair with which the text begins
        obtain ⟨rfl, htail⟩ := List.cons.inj hcs
        refine absurd (closePair_infix_cons.2 (.inl ⟨rfl, ?_⟩)) hnot
        cases inner with
        | nil => simp
        | cons d inner => simpa using (List.cons.inj htail).1.symm
  | case2 start c rest hne ih =>
    rw [ih]
    constructor
    · rintro ⟨inner, hnot, rfl, hstart⟩
      refine ⟨c :: inner, ?_, rfl, by simp [hstart]; omega⟩
      rw [closePair_infix_cons]
      rintro (⟨rfl, hhead⟩ | hin)
      · cases inner with
        | nil => exact hne _ rfl rfl
        | cons d inner =>
          obtain rfl := hhead d rfl
          exact hne _ rfl rfl
      · exact hnot hin
    · rintro ⟨inner, hnot, hcs, hstart⟩
      cases inner with
      | nil =>
        simp at hcs
        exact (hne _ hcs.1 hcs.2).elim
      | cons d inner =>
        refine ⟨inner, fun hin => hnot (closePair_infix_cons.2 (.inr hin)),
          (List.cons.inj hcs).2, ?_⟩
        rw [hstart, List.length_cons]
        omega
  | case3 start => simp

theorem Span.closeBraces_two_eq_ok_iff {s r : Span} :
    s.closeBraces 2 = .ok r ↔ s.chars = '}' :: '}' :: r.chars ∧ r.start = s.start + 2 := by
  obtain ⟨start, cs⟩ := s
  obtain ⟨behind, back⟩ := r
  rcases cs with _ | ⟨c, _ | ⟨d, rest⟩⟩
  · simp [closeBraces]
  · by_cases hc : c = '}' <;> simp [closeBraces, hc]
  · by_cases hc : c = '}' <;> by_cases hd : d = '}' <;> simp [closeBraces, hc, hd]
    rw [eq_comm, and_comm, eq_comm]

section ScanTag

variable {inner : List Char} (h : '}' ∉ inner ∧ '\n' ∉ inner) (closing start : Nat)

include h

theorem takeWhile_identifier (tail : List Char) (htail : ∀ c ∈ tail.head?, c = '}' ∨ c = '\n') :
    (inner ++ tail).takeWhile (fun c => c != '}' && c != '\n') = inner := by
  rw [List.takeWhile_append_of_pos]
  · cases tail with
    | nil => simp
    | cons c tail => rcases htail c rfl with rfl | rfl <;> simp
  · intro c hc
    simp only [Bool.and_eq_true, bne_iff_ne]
    exact ⟨fun he => h.1 (he ▸ hc), fun he => h.2 (he ▸ hc)⟩

theorem Span.scanTag_brace (rest : List Char) :
    (⟨start, inner ++ '}' :: rest⟩ : Span).scanTag closing =
      ((⟨start + inner.length, '}' :: rest⟩ : Span).closeBraces closing).map
        fun behind => (String.ofList (trimSpaces inner), behind) := by
  simp [scanTag, takeWhile_identifier h ('}' :: rest) (by simp)]

theorem Span.scanTag_lineFeed (rest : List Char) :
    (⟨start, inner ++ '\n' :: rest⟩ : Span).scanTag closing =
      .error ⟨.lineFeedInTag, start + inner.length⟩ := by
  simp [scanTag, takeWhile_identifier h ('\n' :: rest) (by simp)]

theorem Span.scanTag_unclosed :
    (⟨start, inner⟩ : Span).scanTag closing = .error ⟨.expectedClose, start + inner.length⟩ := by
  have := takeWhile_identifier h [] (by simp)
  rw [List.append_nil] at this
  simp [scanTag, this, stop]

end ScanTag

/-- An identifier ends at the first close brace or line feed, or at the end. -/
theorem exists_identifier (cs : List Char) : ∃ inner, ('}' ∉ inner ∧ '\n' ∉ inner) ∧
    (cs = inner ∨ (∃ rest, cs = inner ++ '}' :: rest) ∨ ∃ rest, cs = inner ++ '\n' :: rest) := by
  induction cs with
  | nil => exact ⟨[], by simp⟩
  | cons c cs ih =>
    by_cases hc : c = '}' ∨ c = '\n'
    · exact ⟨[], by simp [hc]⟩
    · obtain ⟨inner, ⟨hbrace, hfeed⟩, hcs⟩ := ih
      refine ⟨c :: inner, ?_, by simpa using hcs⟩
      simp only [List.mem_cons, not_or]
      tauto

theorem Span.scanTag_two_eq_ok_iff {s r : Span} {label : String} :
    s.scanTag 2 = .ok (label, r) ↔ ∃ inner, ('}' ∉ inner ∧ '\n' ∉ inner) ∧
      s.chars = inner ++ '}' :: '}' :: r.chars ∧ r.start = s.start + inner.length + 2 ∧
      label = String.ofList (trimSpaces inner) := by
  obtain ⟨start, cs⟩ := s
  constructor
  · intro h
    obtain ⟨inner, hinner, rfl | ⟨rest, rfl⟩ | ⟨rest, rfl⟩⟩ := exists_identifier cs
    · simp [scanTag_unclosed hinner] at h
    · rw [scanTag_brace hinner, map_eq_ok_iff] at h
      obtain ⟨behind, hclose, hpair⟩ := h
      obtain ⟨rfl, rfl⟩ := Prod.mk.inj hpair
      obtain ⟨hrest, hstart⟩ := closeBraces_two_eq_ok_iff.1 hclose
      exact ⟨inner, hinner, congrArg (inner ++ ·) hrest, hstart, rfl⟩
    · simp [scanTag_lineFeed hinner] at h
  · rintro ⟨inner, hinner, hcs, hstart, rfl⟩
    simp only at hcs hstart
    have hclose : (⟨start + inner.length, '}' :: '}' :: r.chars⟩ : Span).closeBraces 2 = .ok r :=
      closeBraces_two_eq_ok_iff.2 ⟨rfl, hstart⟩
    rw [hcs, scanTag_brace hinner, hclose]
    rfl

/-- Reading a tag through takes off it what its kind admits and the close braces. -/
theorem Opening.finish_eq_ok_iff {o : Opening} {label : String} {r : Span}
    (h : o.sigil = .field → ∀ c ∈ o.rest.chars.head?, Sigil.ofChar? c = none) :
    o.finish = .ok (label, r) ↔ ∃ inner, o.sigil.Admits inner ∧
      o.rest.chars = inner ++ '}' :: '}' :: r.chars ∧
      r.start = o.rest.start + inner.length + 2 ∧ label = o.sigil.label inner := by
  obtain ⟨text, offset, sigil, rest⟩ := o
  cases sigil with
  | comment =>
    simp only [Opening.finish, Sigil.Admits, Sigil.label, map_eq_ok_iff, Prod.mk.injEq,
      Span.skipComment, Span.skipComment_go_eq_ok_iff]
    constructor
    · rintro ⟨_, ⟨inner, hinner, hchars, hstart⟩, rfl, rfl⟩
      exact ⟨inner, hinner, hchars, hstart, rfl⟩
    · rintro ⟨inner, hinner, hchars, hstart, rfl⟩
      exact ⟨r, ⟨inner, hinner, hchars, hstart⟩, rfl, rfl⟩
  | field =>
    simp only [Opening.finish, Sigil.Admits, Sigil.label, Span.scanTag_two_eq_ok_iff]
    constructor
    · rintro ⟨inner, hinner, hchars, hstart, hlabel⟩
      refine ⟨inner, ⟨hinner, fun c hc => h rfl c ?_⟩, hchars, hstart, hlabel⟩
      rw [hchars, List.head?_append, Option.mem_def.1 hc]
      rfl
    · rintro ⟨inner, ⟨hinner, -⟩, hchars, hstart, hlabel⟩
      exact ⟨inner, hinner, hchars, hstart, hlabel⟩
  | block | close | inclusion =>
    simp only [Opening.finish, Sigil.Admits, Sigil.label, Span.scanTag_two_eq_ok_iff]

theorem Opening.finish_tag {sigil : Sigil} {inner : List Char} (h : sigil.Admits inner)
    (text : List Char) (offset start : Nat) (rest : List Char) :
    (⟨text, offset, sigil, ⟨start, inner ++ '}' :: '}' :: rest⟩⟩ : Opening).finish =
      .ok (sigil.label inner, ⟨start + inner.length + 2, rest⟩) := by
  rw [finish_eq_ok_iff]
  · exact ⟨inner, h, rfl, rfl, rfl⟩
  · rintro rfl c hc
    obtain ⟨-, hhead⟩ := h
    cases inner with
    | nil =>
      obtain rfl : '}' = c := by simpa using hc
      rfl
    | cons d inner => exact hhead c hc

theorem Span.tag_read {s r : Span} {o : Opening} {label : String}
    (ho : s.nextOpening = .ok (some o)) (hf : o.finish = .ok (label, r)) :
    ∃ inner, o.sigil.Admits inner ∧ label = o.sigil.label inner ∧ '{' ∉ o.text ∧
      s.chars = o.text ++ '{' :: '{' :: (o.sigil.chars ++ inner ++ '}' :: '}' :: r.chars) ∧
      o.offset = s.start + o.text.length ∧ r.stop = s.stop := by
  obtain ⟨htext, hoffset, hchars, hstart, hfield⟩ := nextOpening_eq_some ho
  obtain ⟨inner, hinner, hrest, hr, hlabel⟩ := (Opening.finish_eq_ok_iff hfield).1 hf
  refine ⟨inner, hinner, hlabel, htext, by rw [hchars, hrest, List.append_assoc], hoffset, ?_⟩
  simp only [stop, hr, hstart, hoffset, hchars, hrest, List.length_append, List.length_cons]
  omega

/-! ### Line ends -/

theorem Span.skipLineEnd_eq (start : Nat) (cs : List Char) :
    (⟨start, cs⟩ : Span).skipLineEnd =
      ⟨start + (leadingLineEnd cs).length, cs.drop (leadingLineEnd cs).length⟩ := by
  unfold skipLineEnd leadingLineEnd
  split <;> simp_all

theorem leadingLineEnd_append_drop (cs : List Char) :
    leadingLineEnd cs ++ cs.drop (leadingLineEnd cs).length = cs := by
  unfold leadingLineEnd
  split <;> simp_all

theorem Piece.Before.brace_not_mem_lineEnd {sigil : Sigil} {inner lineEnd rest : List Char}
    (h : (Piece.tag sigil inner lineEnd).Before rest) : '{' ∉ lineEnd := by
  rw [h.2]
  split
  · unfold leadingLineEnd
    split <;> simp
  · simp

/-- The span behind a tag of some kind and behind the line end that the tag takes in. -/
def Span.behindTag (s : Span) (sigil : Sigil) : Span :=
  if sigil.takesLineEnd then s.skipLineEnd else s

theorem Span.behindTag_length_le (s : Span) (sigil : Sigil) :
    (s.behindTag sigil).chars.length ≤ s.chars.length := by
  unfold behindTag
  split
  · exact s.skipLineEnd_length_le
  · exact le_rfl

theorem Piece.Before.behindTag {sigil : Sigil} {inner lineEnd rest : List Char}
    (h : (Piece.tag sigil inner lineEnd).Before rest) (start : Nat) :
    (⟨start, lineEnd ++ rest⟩ : Span).behindTag sigil = ⟨start + lineEnd.length, rest⟩ := by
  obtain ⟨-, hend⟩ := h
  unfold Span.behindTag
  split at hend
  · rename_i ht
    rw [if_pos ht, Span.skipLineEnd_eq, ← hend, List.drop_left]
  · rename_i ht
    subst hend
    rw [if_neg ht]
    rfl

theorem Piece.before_tag_behindTag {sigil : Sigil} {inner : List Char} (h : sigil.Admits inner)
    (s : Span) :
    ∃ lineEnd, (Piece.tag sigil inner lineEnd).Before (s.behindTag sigil).chars ∧
      s.chars = lineEnd ++ (s.behindTag sigil).chars := by
  obtain ⟨start, cs⟩ := s
  unfold Span.behindTag
  split
  · rename_i ht
    rw [Span.skipLineEnd_eq]
    refine ⟨leadingLineEnd cs, ⟨h, ?_⟩, (leadingLineEnd_append_drop cs).symm⟩
    rw [if_pos ht, leadingLineEnd_append_drop]
  · rename_i ht
    exact ⟨[], ⟨h, by rw [if_neg ht]⟩, rfl⟩

/-! ### There is one cut only -/

theorem takeWhile_text {content rest : List Char} (h : (Piece.text content).Before rest) :
    (content ++ rest).takeWhile (· != '{') = content := by
  obtain ⟨-, hbrace, hrest⟩ := h
  rw [List.takeWhile_append_of_pos]
  · cases rest with
    | nil => simp
    | cons c rest => simp [hrest c rfl]
  · intro c hc
    simp only [bne_iff_ne]
    exact fun he => hbrace (he ▸ hc)

/-- The piece at the front of a text is determined by the text. -/
theorem Piece.Before.unique {p q : Piece} {rest rest' : List Char} (hp : p.Before rest)
    (hq : q.Before rest') (h : p.written ++ rest = q.written ++ rest') : p = q := by
  cases p with
  | text content =>
    cases q with
    | text content' =>
      have := takeWhile_text hp
      rw [show content ++ rest = content' ++ rest' from h, takeWhile_text hq] at this
      rw [this]
    | tag sigil' inner' lineEnd' =>
      obtain ⟨hne, hbrace, -⟩ := hp
      obtain ⟨c, content, rfl⟩ := List.exists_cons_of_ne_nil hne
      simp only [written, List.cons_append, List.cons.injEq] at h
      simp [h.1] at hbrace
  | tag sigil inner lineEnd =>
    cases q with
    | text content' =>
      obtain ⟨hne, hbrace, -⟩ := hq
      obtain ⟨c, content, rfl⟩ := List.exists_cons_of_ne_nil hne
      simp only [written, List.cons_append, List.cons.injEq] at h
      simp [← h.1] at hbrace
    | tag sigil' inner' lineEnd' =>
      have hopen := Span.nextOpening_tag hp.1 0 (lineEnd ++ rest)
      have hopen' := Span.nextOpening_tag hq.1 0 (lineEnd' ++ rest')
      simp only [written, List.cons_append, List.append_assoc] at h hopen hopen'
      rw [h, hopen'] at hopen
      simp only [Except.ok.injEq, Option.some.injEq, Opening.mk.injEq, Span.mk.injEq, true_and]
        at hopen
      obtain ⟨rfl, -, hinner⟩ := hopen
      have hread := Opening.finish_tag hp.1 [] 0 0 (lineEnd ++ rest)
      rw [← hinner, Opening.finish_tag hq.1] at hread
      simp only [Except.ok.injEq, Prod.mk.injEq, Span.mk.injEq] at hread
      obtain ⟨-, hlength, hbehind⟩ := hread
      obtain ⟨rfl, -⟩ := List.append_inj hinner (by omega)
      rw [hp.2, hq.2, hbehind]

/-- A source is cut into pieces in one way only. -/
theorem WellCut.unique {ps qs : List Piece} (hps : WellCut ps) (hqs : WellCut qs)
    (h : written ps = written qs) : ps = qs := by
  induction ps generalizing qs with
  | nil =>
    cases qs with
    | nil => rfl
    | cons q qs =>
      have := Piece.written_ne_nil hqs.1
      simp_all
  | cons p ps ih =>
    cases qs with
    | nil =>
      have := Piece.written_ne_nil hps.1
      simp_all
    | cons q qs =>
      obtain rfl := hps.1.unique hqs.1 h
      rw [ih hps.2 hqs.2 (List.append_cancel_left h)]

/-- The pieces are how the source is cut, and the only way to cut it. -/
def CutsInto (source : List Char) (ps : List Piece) : Prop :=
  ∀ qs, WellCut qs ∧ written qs = source ↔ qs = ps

theorem cutsInto_iff {source : List Char} {ps : List Piece} :
    CutsInto source ps ↔ WellCut ps ∧ written ps = source := by
  constructor
  · intro h
    exact (h ps).2 rfl
  · rintro ⟨hcut, rfl⟩ qs
    constructor
    · rintro ⟨hqs, hwritten⟩
      exact hqs.unique hcut hwritten
    · rintro rfl
      exact ⟨hcut, rfl⟩

end Mustache.Template
