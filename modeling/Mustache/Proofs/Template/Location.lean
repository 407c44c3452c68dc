import Mustache.Error
import Mustache.Proofs.Position
import Mustache.Proofs.Template.Concatenation

/-! Where defects are located. Main result: the offset of a defect lies in the source, its
end included, and its position is the one that reading the source up to there reaches; so
different places have different positions, and a comment put in front of a source moves a
defect down by the line feeds of the comment. -/

namespace Mustache.Template

/-! ### A span is refused at an offset of its own -/

namespace Span

/-- An offset of a span, that behind its last character included. -/
def Holds (s : Span) (i : Nat) : Prop := s.start ≤ i ∧ i ≤ s.stop

theorem holds_stop (s : Span) : s.Holds s.stop := ⟨Nat.le_add_right _ _, le_rfl⟩

variable {s t : Span} {e : SyntaxError}

theorem PartOf.holds (h : t.PartOf s) {i : Nat} (hi : t.Holds i) : s.Holds i := by
  obtain ⟨front, back, hchars, hstart⟩ := h
  obtain ⟨hfrom, hto⟩ := hi
  have hlength := congrArg List.length hchars
  simp only [List.length_append] at hlength
  simp only [stop] at hto
  constructor
  · omega
  · simp only [stop]
    omega

theorem holds_of_nextOpening (h : s.nextOpening = .error e) : s.Holds e.offset := by
  have hle := (List.takeWhile_prefix (· != '{') (l := s.chars)).length_le
  unfold nextOpening at h
  split at h
  · cases h
  · cases h
    exact s.holds_stop
  · split at h <;> cases h
  · cases h
    constructor <;> simp only [stop] <;> omega

theorem holds_of_closeBraces {closing : Nat} (h : s.closeBraces closing = .error e) :
    s.Holds e.offset := by
  fun_induction closeBraces closing s with
  | case1 => cases h
  | case2 closing start rest ih =>
    have hpart : (⟨start + 1, rest⟩ : Span).PartOf ⟨start, '}' :: rest⟩ := ⟨['}'], [], by simp, rfl⟩
    exact hpart.holds (ih h)
  | case3 closing s =>
    cases h
    exact ⟨le_rfl, Nat.le_add_right _ _⟩

theorem holds_of_scanTag {closing : Nat} (h : s.scanTag closing = .error e) :
    s.Holds e.offset := by
  obtain ⟨start, cs⟩ := s
  obtain ⟨inner, hinner, rfl | ⟨rest, rfl⟩ | ⟨rest, rfl⟩⟩ := exists_identifier cs
  · rw [scanTag_unclosed hinner] at h
    cases h
    exact holds_stop _
  · rw [scanTag_brace hinner] at h
    have hpart : (⟨start + inner.length, '}' :: rest⟩ : Span).PartOf
        ⟨start, inner ++ '}' :: rest⟩ := ⟨inner, [], by simp, rfl⟩
    cases hclose : (⟨start + inner.length, '}' :: rest⟩ : Span).closeBraces closing with
    | ok behind => simp [hclose, Except.map] at h
    | error e' =>
      obtain rfl : e' = e := by simpa [hclose, Except.map] using h
      exact hpart.holds (holds_of_closeBraces hclose)
  · rw [scanTag_lineFeed hinner] at h
    cases h
    constructor <;> simp only [stop, List.length_append] <;> omega

/-- A comment without an end is refused where the text ends. -/
theorem offset_of_skipComment {start : Nat} {cs : List Char}
    (h : skipComment.go start cs = .error e) : e.offset = start + cs.length := by
  fun_induction skipComment.go start cs with
  | case1 => cases h
  | case2 start c rest _ ih =>
    rw [ih h, List.length_cons]
    omega
  | case3 start =>
    cases h
    rfl

end Span

theorem Opening.holds_of_finish {o : Opening} {e : SyntaxError} (h : o.finish = .error e) :
    o.rest.Holds e.offset := by
  unfold finish at h
  split at h
  · cases hskip : o.rest.skipComment with
    | ok behind => simp [hskip, Except.map] at h
    | error e' =>
      obtain rfl : e' = e := by simpa [hskip, Except.map] using h
      rw [Span.offset_of_skipComment hskip]
      exact o.rest.holds_stop
  · exact Span.holds_of_scanTag h

theorem Span.holds_of_sectionEnd {s : Span} {e : SyntaxError} {name : String} {pending : Nat}
    (h : s.sectionEnd name pending = .error e) : s.Holds e.offset := by
  induction hn : s.chars.length using Nat.strong_induction_on generalizing s pending with
  | h n ih =>
    subst hn
    rw [sectionEnd_eq] at h
    split at h
    · rename_i hnext
      cases h
      exact holds_of_nextOpening hnext
    · cases h
      exact s.holds_stop
    · rename_i o ho
      split at h
      · rename_i hf
        cases h
        exact (opening_partOf ho).holds (Opening.holds_of_finish hf)
      · rename_i label rest hf
        split at h
        · cases h
        · exact (tag_partOf ho hf).holds (ih _ (tag_length_lt ho hf) h rfl)

theorem Opening.holds_of_enclosed {s : Span} {o : Opening} {e : SyntaxError}
    (ho : s.nextOpening = .ok (some o)) (h : o.enclosed = .error e) : s.Holds e.offset := by
  unfold enclosed at h
  split at h
  · rename_i hf
    cases h
    exact (Span.opening_partOf ho).holds (holds_of_finish hf)
  · rename_i name behind hf
    have hbody := behind.skipLineEnd_partOf.trans (Span.tag_partOf ho hf)
    split at h
    · rename_i hend
      cases h
      exact hbody.holds (Span.holds_of_sectionEnd hend)
    · cases h

/-- Whatever sections the defect stands in, and however many enclose the span. -/
theorem holds_of_buildOnto {limit depth : Nat} {done : List Node} {s : Span} {e : SyntaxError}
    (h : buildOnto limit depth done s = .error e) : s.Holds e.offset := by
  induction hn : s.chars.length using Nat.strong_induction_on generalizing s depth done with
  | h n ih =>
    subst hn
    rw [buildOnto_eq] at h
    split at h
    · rename_i hnext
      cases h
      exact Span.holds_of_nextOpening hnext
    · cases h
    · rename_i o ho
      obtain ⟨-, hoffset, hchars, -⟩ := Span.nextOpening_eq_some ho
      -- a tag that does not fit is refused where it starts
      have hopening : s.Holds o.offset := by
        constructor <;> simp only [Span.stop, hoffset, hchars, List.length_append] <;> omega
      cases hsigil : o.sigil with
      | close =>
        simp only [hsigil] at h
        cases h
        exact hopening
      | block sense =>
        simp only [hsigil] at h
        split at h
        · cases h
          exact hopening
        · split at h
          · rename_i hsec
            cases h
            exact Opening.holds_of_enclosed ho hsec
          · rename_i sec hsec
            obtain ⟨hbody, hrest⟩ := Opening.enclosed_partOf ho hsec
            obtain ⟨hltBody, hltRest⟩ := Opening.enclosed_length_lt ho hsec
            split at h
            · rename_i hchildren
              cases h
              exact hbody.holds (ih _ hltBody hchildren rfl)
            · exact hrest.holds (ih _ hltRest h rfl)
      | field | inclusion | comment =>
        simp only [hsigil] at h
        split at h
        · rename_i hf
          cases h
          exact (Span.opening_partOf ho).holds (Opening.holds_of_finish hf)
        · rename_i label behind hf
          have hlt := Span.tag_length_lt ho hf
          have hle := behind.behindTag_length_le o.sigil
          have hpart := (behind.behindTag_partOf o.sigil).trans (Span.tag_partOf ho hf)
          rw [hsigil] at hle hpart
          exact hpart.holds (ih _ (hle.trans_lt hlt) h rfl)

theorem offset_le_of_parse {limit : Nat} {source : List Char} {e : SyntaxError}
    (h : parse limit source = .error e) : e.offset ≤ source.length := by
  have hholds := holds_of_buildOnto h
  simpa [Span.ofSource, Span.stop] using hholds.2

/-! ### A comment in front of a source -/

def commentOf (inner : List Char) : List Char := (Piece.tag .comment inner []).written

theorem count_lineFeed_commentOf (inner : List Char) :
    (commentOf inner).count '\n' = inner.count '\n' := by
  simp [commentOf, Piece.written, Sigil.chars]

/-- A source behind a comment is refused for what it is refused by itself. The comment takes
in a line end with which the source begins, and so no other defect is met. -/
theorem parse_commentOf_append {limit : Nat} {source : List Char} {e : SyntaxError}
    (h : parse limit source = .error e) {inner : List Char} (hinner : Sigil.comment.Admits inner) :
    parse limit (commentOf inner ++ source) = .error (e.shift (commentOf inner).length) := by
  have hat : buildOnto limit 0 [] ⟨(commentOf inner).length, source⟩ =
      .error (e.shift (commentOf inner).length) := by
    rw [buildOnto_at, h]
    rfl
  obtain ⟨lineEnd, hpiece, hsource⟩ :=
    Piece.before_tag_behindTag hinner ⟨(commentOf inner).length, source⟩
  generalize (Span.behindTag _ _).chars = rest at hpiece hsource
  obtain rfl : source = lineEnd ++ rest := hsource
  have hwritten : (Piece.tag .comment inner lineEnd).written = commentOf inner ++ lineEnd := by
    simp [commentOf, Piece.written]
  have hcomment : parse limit (commentOf inner ++ (lineEnd ++ rest)) =
      buildOnto limit 0 [] ⟨(commentOf inner).length + lineEnd.length, rest⟩ := by
    have halone := @buildOnto_alone _ [] _ rfl hpiece limit 0 0 []
    rw [hwritten, List.length_append, List.append_assoc, Nat.zero_add] at halone
    exact halone
  have hcontinues := continues_text hpiece.brace_not_mem_lineEnd limit 0 (commentOf inner).length
    [] rest
  rw [hat, ← hcomment] at hcontinues
  obtain ⟨herror, hok⟩ := hcontinues
  cases hparse : parse limit (commentOf inner ++ (lineEnd ++ rest)) with
  | error e' => rw [herror e' hparse]
  | ok nodes =>
    obtain ⟨all, hall, -⟩ := hok nodes hparse
    cases hall

theorem line_of_parse_commentOf {limit : Nat} {source : List Char} {e : SyntaxError}
    (h : parse limit source = .error e) {inner : List Char} (hinner : Sigil.comment.Admits inner) :
    ∃ e', parse limit (commentOf inner ++ source) = .error e' ∧ e'.defect = e.defect ∧
      (TemplateError.ofSyntaxIn (commentOf inner ++ source) e').position.line =
        (TemplateError.ofSyntaxIn source e).position.line + inner.count '\n' := by
  refine ⟨_, parse_commentOf_append h hinner, rfl, ?_⟩
  simp only [TemplateError.ofSyntaxIn, LineIndex.line_position, SyntaxError.shift,
    List.take_length_add_append, List.count_append, count_lineFeed_commentOf]
  omega

/-- The position of an offset is the one that reading the source up to there reaches, so
different offsets have different positions. A defect is located so, at an offset of the
source, and a comment in front of the source moves it down by the lines of the comment. -/
theorem parse_error_position (limit : Nat) (source : List Char) :
    (∀ i ≤ source.length,
      (LineIndex.ofSource source).position i = Position.origin.walk (source.take i)) ∧
    (∀ i ≤ source.length, ∀ j ≤ source.length,
      (LineIndex.ofSource source).position i = (LineIndex.ofSource source).position j → i = j) ∧
    ∀ e, parse limit source = .error e → e.offset ≤ source.length ∧
      (TemplateError.ofSyntaxIn source e).position =
        Position.origin.walk (source.take e.offset) ∧
      ∀ inner, Sigil.comment.Admits inner → ∃ e',
        parse limit (commentOf inner ++ source) = .error e' ∧ e'.defect = e.defect ∧
        (TemplateError.ofSyntaxIn (commentOf inner ++ source) e').position.line =
          (TemplateError.ofSyntaxIn source e).position.line + inner.count '\n' := by
  refine ⟨fun i hi => LineIndex.position_eq_walk hi, fun i hi j hj hij => ?_, fun e he => ?_⟩
  · rw [LineIndex.position_eq_walk hi, LineIndex.position_eq_walk hj] at hij
    exact Position.walk_take_injective hi hj _ hij
  · have hoffset := offset_le_of_parse he
    exact ⟨hoffset, LineIndex.position_eq_walk hoffset,
      fun inner hinner => line_of_parse_commentOf he hinner⟩

/-- A tag that is cut short by a line feed, in a section on the second line. -/
def cutTagInSection : List Char :=
  "x\n\x7b\x7b#a\x7d\x7d\r\n \x7b\x7bb\n\x7d\x7d\x7b\x7b/a\x7d\x7d".toList

theorem parse_error_position_cutTagInSection :
    parse 1 cutTagInSection = .error ⟨.lineFeedInTag, 14⟩ ∧
      (TemplateError.ofSyntaxIn cutTagInSection ⟨.lineFeedInTag, 14⟩).position = ⟨3, 5⟩ ∧
      Sigil.comment.Admits "\n\x7d\r\n".toList ∧
      ∃ e', parse 1 (commentOf "\n\x7d\r\n".toList ++ cutTagInSection) = .error e' ∧
        e'.defect = .lineFeedInTag ∧
        (TemplateError.ofSyntaxIn
          (commentOf "\n\x7d\r\n".toList ++ cutTagInSection) e').position.line = 5 := by
  have hparse : parse 1 cutTagInSection = .error ⟨.lineFeedInTag, 14⟩ := by
    with_unfolding_all rfl
  obtain ⟨-, -, herror⟩ := parse_error_position 1 cutTagInSection
  obtain ⟨-, hwalk, hcomment⟩ := herror _ hparse
  have hposition : (TemplateError.ofSyntaxIn cutTagInSection ⟨.lineFeedInTag, 14⟩).position =
      ⟨3, 5⟩ := by
    rw [hwalk]
    rfl
  have hinner : Sigil.comment.Admits "\n\x7d\r\n".toList := by
    unfold Sigil.Admits
    decide
  obtain ⟨e', he', hdefect, hline⟩ := hcomment _ hinner
  rw [hposition] at hline
  exact ⟨hparse, hposition, hinner, e', he', hdefect, hline⟩

end Mustache.Template
