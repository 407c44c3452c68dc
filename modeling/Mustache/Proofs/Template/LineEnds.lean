import Mustache.Error
import Mustache.Proofs.Position
import Mustache.Proofs.Template.Transcription

/-! Line ends of two characters. Main result: a source without carriage returns whose line
ends become `\r\n` compiles to the same nodes with the line ends in their texts and bodies
written so, or is refused for the same defect on the same line. The offsets in it grow by
the number of line ends in front of them, so this is a transcription; all readers meet the
carriage return of a line end only where they stop at the line feed, or pass both. -/

namespace Mustache.Template

/-- A text with `\r\n` for each `\n`. -/
def crlf (text : List Char) : List Char :=
  text.flatMap fun c => if c = '\n' then ['\r', '\n'] else [c]

@[simp] theorem crlf_nil : crlf [] = [] := rfl

theorem crlf_lineFeed (text : List Char) : crlf ('\n' :: text) = '\r' :: '\n' :: crlf text := rfl

theorem crlf_cons_of_ne {c : Char} (hc : c ≠ '\n') (text : List Char) :
    crlf (c :: text) = c :: crlf text := by
  simp [crlf, hc]

theorem crlf_append (front back : List Char) : crlf (front ++ back) = crlf front ++ crlf back :=
  List.flatMap_append

theorem crlf_eq_nil (text : List Char) : crlf text = [] ↔ text = [] := by
  cases text with
  | nil => simp
  | cons c text => by_cases hc : c = '\n' <;> simp [crlf, hc]

theorem crlf_of_not_mem {text : List Char} (h : '\n' ∉ text) : crlf text = text := by
  induction text with
  | nil => rfl
  | cons c text ih =>
    rw [List.mem_cons, not_or] at h
    rw [crlf_cons_of_ne (Ne.symm h.1), ih h.2]

theorem mem_crlf {c : Char} {text : List Char} (h : c ∈ crlf text) : c ∈ text ∨ c = '\r' := by
  obtain ⟨d, hd, hc⟩ := List.mem_flatMap.1 h
  split at hc
  · rename_i hfeed
    subst hfeed
    simp only [List.mem_cons, List.not_mem_nil, or_false] at hc
    obtain rfl | rfl := hc
    · exact .inr rfl
    · exact .inl hd
  · rw [List.mem_singleton] at hc
    exact .inl (hc ▸ hd)

theorem count_lineFeed_crlf (text : List Char) : (crlf text).count '\n' = text.count '\n' := by
  induction text with
  | nil => rfl
  | cons c text ih =>
    by_cases hc : c = '\n'
    · subst hc
      simp [crlf_lineFeed, ih]
    · simp [crlf_cons_of_ne hc, hc, ih]

/-- The first character stays what it is, but for a line feed. -/
theorem exists_crlf_cons (c : Char) (text : List Char) :
    ∃ back, crlf (c :: text) = (if c = '\n' then '\r' else c) :: back := by
  by_cases hc : c = '\n'
  · subst hc
    exact ⟨'\n' :: crlf text, rfl⟩
  · exact ⟨crlf text, by rw [crlf_cons_of_ne hc, if_neg hc]⟩

/-- A character other than a line feed stands in front as it did. -/
theorem eq_cons_of_crlf {c : Char} (hc : c ≠ '\r') {text back : List Char}
    (h : crlf text = c :: back) : ∃ rest, text = c :: rest := by
  rcases text with _ | ⟨d, text⟩
  · cases h
  · obtain ⟨back', hback⟩ := exists_crlf_cons d text
    rw [hback, List.cons.injEq] at h
    obtain ⟨hd, -⟩ := h
    split at hd
    · exact absurd hd.symm hc
    · exact ⟨text, by rw [hd]⟩

theorem leadingLineEnd_crlf {text : List Char} (h : '\r' ∉ text) :
    leadingLineEnd (crlf text) = crlf (leadingLineEnd text) := by
  rcases text with _ | ⟨c, text⟩
  · rfl
  · by_cases hc : c = '\n'
    · subst hc
      rfl
    · have hreturn : c ≠ '\r' := fun hc => h (by simp [hc])
      simp [crlf_cons_of_ne hc, leadingLineEnd, hc, hreturn]

/-- Where a place of a source lies when its line ends are written so. -/
def crlfOffset (source : List Char) (offset : Nat) : Nat := (crlf (source.take offset)).length

/-- A line feed in a tag now has a carriage return in front of it. -/
def crlfError (source : List Char) (e : SyntaxError) : SyntaxError :=
  ⟨e.defect, crlfOffset source e.offset + if e.defect = .lineFeedInTag then 1 else 0⟩

def Transcription.crlf (source : List Char) : Transcription :=
  ⟨Template.crlf, crlfOffset source, crlfError source⟩

section Crlf

open Transcription

variable {source : List Char}

theorem crlfOffset_add {start : Nat} {front back : List Char}
    (h : (⟨start, front ++ back⟩ : Span).PartOf (.ofSource source)) :
    crlfOffset source (start + front.length) = crlfOffset source start + (crlf front).length := by
  obtain ⟨before, after, hsource, hstart⟩ := h
  simp only [Span.ofSource, Nat.zero_add] at hsource hstart
  subst hstart
  have hlonger : source.take (before.length + front.length) = before ++ front := by
    rw [hsource, List.append_assoc, ← List.append_assoc, ← List.length_append, List.take_left]
  have hshorter : source.take before.length = before := by
    rw [hsource, List.take_left]
  rw [crlfOffset, crlfOffset, hlonger, hshorter, crlf_append, List.length_append]

theorem not_mem_of_partOf {s : Span} {c : Char} (hc : c ∉ source)
    (h : s.PartOf (.ofSource source)) : c ∉ s.chars := by
  obtain ⟨before, after, hsource, -⟩ := h
  intro hmem
  exact hc (by rw [show source = _ from hsource]; simp [hmem])

/-- Offsets of a place behind some characters of a span none of which is a line feed. -/
theorem crlfOffset_add_of_not_mem {start : Nat} {front back : List Char}
    (h : (⟨start, front ++ back⟩ : Span).PartOf (.ofSource source)) (hfeed : '\n' ∉ front) :
    crlfOffset source (start + front.length) = crlfOffset source start + front.length := by
  rw [crlfOffset_add h, crlf_of_not_mem hfeed]

theorem nextOpening_of_ne {b : Char} (hb : b ≠ '{') (start : Nat) (rest : List Char) :
    (⟨start, '{' :: b :: rest⟩ : Span).nextOpening = .error ⟨.expectedOpen, start⟩ := by
  simp [Span.nextOpening, hb]

theorem nextOpening_crlf_braces {start : Nat} {c : Char} {rest : List Char}
    (h : (⟨start, '{' :: '{' :: c :: rest⟩ : Span).PartOf (.ofSource source)) :
    (⟨crlfOffset source start, Template.crlf ('{' :: '{' :: c :: rest)⟩ : Span).nextOpening =
      (Transcription.crlf source).outcome (Option.map (Transcription.crlf source).opening)
        (⟨start, '{' :: '{' :: c :: rest⟩ : Span).nextOpening := by
  have hbehind := @crlfOffset_add_of_not_mem source start ['{', '{'] (c :: rest) h (by decide)
  simp only [List.length_cons, List.length_nil] at hbehind
  rw [crlf_cons_of_ne (by decide), crlf_cons_of_ne (by decide), Span.nextOpening_braces]
  by_cases hc : c = '\n'
  · subst hc
    have hreturn : Sigil.ofChar? '\r' = none := rfl
    have hfeed : Sigil.ofChar? '\n' = none := rfl
    rw [crlf_lineFeed, Span.nextOpening_braces, hreturn, hfeed]
    simp only [outcome_ok, Option.map_some, opening, span, Transcription.crlf, hbehind,
      crlf_nil, crlf_lineFeed]
  · have hsigil := @crlfOffset_add_of_not_mem source start ['{', '{', c] rest h
      (by simp [Ne.symm hc])
    simp only [List.length_cons, List.length_nil] at hsigil
    rw [crlf_cons_of_ne hc, Span.nextOpening_braces]
    cases Sigil.ofChar? c with
    | some sigil =>
      simp only [outcome_ok, Option.map_some, opening, span, Transcription.crlf, hsigil,
        crlf_nil]
    | none =>
      simp only [outcome_ok, Option.map_some, opening, span, Transcription.crlf, hbehind,
        crlf_nil, crlf_cons_of_ne hc]

theorem nextOpening_crlf_front {start : Nat} {rest : List Char}
    (h : (⟨start, rest⟩ : Span).PartOf (.ofSource source)) (hrest : ∀ c ∈ rest.head?, c = '{') :
    (⟨crlfOffset source start, Template.crlf rest⟩ : Span).nextOpening =
      (Transcription.crlf source).outcome (Option.map (Transcription.crlf source).opening)
        (⟨start, rest⟩ : Span).nextOpening := by
  rcases rest with _ | ⟨c, _ | ⟨b, rest⟩⟩
  · rfl
  · obtain rfl := hrest c rfl
    rfl
  · obtain rfl := hrest c rfl
    by_cases hb : b = '{'
    · subst hb
      rcases rest with _ | ⟨c, rest⟩
      · have hstop : crlfOffset source (start + 2) = crlfOffset source start + 2 :=
          @crlfOffset_add_of_not_mem source start ['{', '{'] [] h (by decide)
        rw [crlf_cons_of_ne (by decide), crlf_cons_of_ne (by decide)]
        simp [Span.nextOpening, Span.stop, Transcription.crlf, crlfError, hstop]
      · exact nextOpening_crlf_braces h
    · obtain ⟨back, hback⟩ := exists_crlf_cons b rest
      have hb' : (if b = '\n' then '\r' else b) ≠ '{' := by
        split
        · decide
        · exact hb
      rw [crlf_cons_of_ne (by decide), hback, nextOpening_of_ne hb, nextOpening_of_ne hb']
      rfl

theorem nextOpening_crlf {s : Span} (h : s.PartOf (.ofSource source)) :
    ((Transcription.crlf source).span s).nextOpening =
      (Transcription.crlf source).outcome
        (Option.map (Transcription.crlf source).opening) s.nextOpening := by
  obtain ⟨start, cs⟩ := s
  obtain ⟨text, rest, rfl, htext, hrest⟩ := exists_text_append cs
  have htext' : '{' ∉ Template.crlf text := fun hmem => by
    obtain hmem | hreturn := mem_crlf hmem
    · exact htext hmem
    · cases hreturn
  have hpart : (⟨start + text.length, rest⟩ : Span).PartOf ⟨start, text ++ rest⟩ :=
    Span.partOf_of_append text rfl (by simp [Span.stop, Nat.add_assoc])
  have hfront := nextOpening_crlf_front (hpart.trans h) hrest
  have hspan : (Transcription.crlf source).span ⟨start, text ++ rest⟩ =
      ⟨crlfOffset source start, Template.crlf text ++ Template.crlf rest⟩ := by
    rw [← crlf_append]
    rfl
  rw [hspan, Span.nextOpening_append htext', Span.nextOpening_append htext, ← crlfOffset_add h,
    hfront]
  rcases (⟨start + text.length, rest⟩ : Span).nextOpening with e | _ | o
  · rfl
  · rfl
  · simp only [outcome_ok, Option.map_some, Except.map, opening, Transcription.crlf, crlf_append]

theorem closeBraces_crlf {start : Nat} {rest : List Char}
    (h : (⟨start, '}' :: rest⟩ : Span).PartOf (.ofSource source)) :
    (⟨crlfOffset source start, '}' :: Template.crlf rest⟩ : Span).closeBraces 2 =
      (Transcription.crlf source).outcome (Transcription.crlf source).span
        ((⟨start, '}' :: rest⟩ : Span).closeBraces 2) := by
  have hone := @crlfOffset_add_of_not_mem source start ['}'] rest h (by decide)
  rcases rest with _ | ⟨c, rest⟩
  · simpa [Span.closeBraces, Transcription.crlf, crlfError] using hone.symm
  · by_cases hc : c = '}'
    · subst hc
      have htwo := @crlfOffset_add_of_not_mem source start ['}', '}'] rest h (by decide)
      rw [crlf_cons_of_ne (by decide)]
      simpa [Span.closeBraces, Transcription.crlf, span] using htwo.symm
    · obtain ⟨back, hback⟩ := exists_crlf_cons c rest
      have hc' : (if c = '\n' then '\r' else c) ≠ '}' := by
        split
        · decide
        · exact hc
      rw [hback]
      simpa [Span.closeBraces, hc, hc', Transcription.crlf, crlfError] using hone.symm

theorem scanTag_crlf {s : Span} (h : s.PartOf (.ofSource source)) :
    ((Transcription.crlf source).span s).scanTag 2 =
      (Transcription.crlf source).outcome
        (Prod.map id (Transcription.crlf source).span) (s.scanTag 2) := by
  obtain ⟨start, cs⟩ := s
  obtain ⟨inner, hinner, rfl | ⟨rest, rfl⟩ | ⟨rest, rfl⟩⟩ := exists_identifier cs
  · have hoffset := @crlfOffset_add_of_not_mem source start cs [] (by simpa using h) hinner.2
    simp [span, Transcription.crlf, crlf_of_not_mem hinner.2, Span.scanTag_unclosed hinner,
      crlfError, hoffset]
  · have hoffset := crlfOffset_add_of_not_mem h hinner.2
    have hpart : (⟨start + inner.length, '}' :: rest⟩ : Span).PartOf
        ⟨start, inner ++ '}' :: rest⟩ :=
      Span.partOf_of_append inner rfl (by simp [Span.stop, Nat.add_assoc])
    have hclose := closeBraces_crlf (hpart.trans h)
    have hspan : (Transcription.crlf source).span ⟨start, inner ++ '}' :: rest⟩ =
        ⟨crlfOffset source start, inner ++ '}' :: Template.crlf rest⟩ := by
      simp only [span, Transcription.crlf, crlf_append, crlf_of_not_mem hinner.2]
      rw [crlf_cons_of_ne (by decide)]
    rw [hspan, Span.scanTag_brace hinner, Span.scanTag_brace hinner, ← hoffset, hclose]
    cases (⟨start + inner.length, '}' :: rest⟩ : Span).closeBraces 2 <;> rfl
  · have hoffset := crlfOffset_add_of_not_mem h hinner.2
    have hinner' : '}' ∉ inner ++ ['\r'] ∧ '\n' ∉ inner ++ ['\r'] := by simp [hinner]
    have hspan : (Transcription.crlf source).span ⟨start, inner ++ '\n' :: rest⟩ =
        ⟨crlfOffset source start, (inner ++ ['\r']) ++ '\n' :: Template.crlf rest⟩ := by
      simp only [span, Transcription.crlf, crlf_append, crlf_of_not_mem hinner.2, crlf_lineFeed]
      simp
    rw [hspan, Span.scanTag_lineFeed hinner, Span.scanTag_lineFeed hinner']
    simp [Transcription.crlf, crlfError, hoffset, Nat.add_assoc]

theorem skipComment_of_ne {c : Char} (hc : c ≠ '}') (start : Nat) (rest : List Char) :
    Span.skipComment.go start (c :: rest) = Span.skipComment.go (start + 1) rest := by
  rw [Span.skipComment.go]
  rintro _ rfl
  exact absurd rfl hc

theorem skipComment_crlf {start : Nat} {cs : List Char}
    (h : (⟨start, cs⟩ : Span).PartOf (.ofSource source)) :
    Span.skipComment.go (crlfOffset source start) (Template.crlf cs) =
      (Transcription.crlf source).outcome (Transcription.crlf source).span
        (Span.skipComment.go start cs) := by
  fun_induction Span.skipComment.go start cs with
  | case1 start rest =>
    have htwo := @crlfOffset_add_of_not_mem source start ['}', '}'] rest h (by decide)
    rw [crlf_cons_of_ne (by decide), crlf_cons_of_ne (by decide), Span.skipComment.go]
    simpa [span, Transcription.crlf] using htwo.symm
  | case2 start c rest hpair ih =>
    have hrest : (⟨start + 1, rest⟩ : Span).PartOf ⟨start, c :: rest⟩ :=
      Span.partOf_of_append [c] rfl (by simp [Span.stop]; omega)
    have hone := @crlfOffset_add source start [c] rest h
    rw [← ih (hrest.trans h)]
    by_cases hc : c = '\n'
    · subst hc
      rw [crlf_lineFeed, skipComment_of_ne (by decide), skipComment_of_ne (by decide)]
      exact congrArg (Span.skipComment.go · _) hone.symm
    · rw [crlf_of_not_mem (by simp [Ne.symm hc])] at hone
      rw [crlf_cons_of_ne hc, Span.skipComment.go]
      · exact congrArg (Span.skipComment.go · _) hone.symm
      · intro back hbrace hback
        obtain ⟨rest', hrest'⟩ := eq_cons_of_crlf (by decide) hback
        exact hpair rest' hbrace hrest'
  | case3 start => rfl

theorem finish_crlf {s : Span} {o : Opening} (h : s.PartOf (.ofSource source))
    (ho : s.nextOpening = .ok (some o)) :
    ((Transcription.crlf source).opening o).finish =
      (Transcription.crlf source).outcome
        (Prod.map id (Transcription.crlf source).span) o.finish := by
  have hrest := (Span.opening_partOf ho).trans h
  obtain ⟨text, offset, sigil, rest⟩ := o
  cases sigil with
  | comment =>
    have hskip := skipComment_crlf hrest
    simp only [Opening.finish, opening, Span.skipComment, span, Transcription.crlf] at hskip ⊢
    rw [hskip]
    cases Span.skipComment.go rest.start rest.chars <;> rfl
  | field | block | close | inclusion => exact scanTag_crlf hrest

theorem faithful_crlf (h : '\r' ∉ source) :
    (Transcription.crlf source).Faithful (·.PartOf (.ofSource source)) where
  part hs hpart := hpart.trans hs
  text_eq_nil := crlf_eq_nil
  error_structural {d} i hd := by
    have hne : d ≠ .lineFeedInTag := by
      rintro rfl
      exact hd trivial
    simp [Transcription.crlf, crlfError, hne]
  stop {s} hs := (@crlfOffset_add source s.start s.chars [] (by simpa using hs)).symm
  upTo {s i} hs hfrom hto := by
    obtain ⟨start, cs⟩ := s
    simp only [Span.stop] at hfrom hto
    have hsplit := List.take_append_drop (i - start) cs
    have hlength : (cs.take (i - start)).length = i - start := by
      rw [List.length_take]
      omega
    have hoffset := @crlfOffset_add source start (cs.take (i - start)) (cs.drop (i - start))
      (by rwa [hsplit])
    rw [hlength, Nat.add_sub_cancel' hfrom] at hoffset
    have hcut : (Template.crlf cs).take (Template.crlf (cs.take (i - start))).length =
        Template.crlf (cs.take (i - start)) := by
      conv_lhs => rw [← hsplit, crlf_append, hsplit]
      exact List.take_left
    simp only [Span.upTo, span, Transcription.crlf, hoffset, Nat.add_sub_cancel_left, hcut]
  skipLineEnd {s} hs := by
    obtain ⟨start, cs⟩ := s
    have hreturn : '\r' ∉ cs := not_mem_of_partOf h hs
    have hsplit := leadingLineEnd_append_drop cs
    have hoffset := @crlfOffset_add source start (leadingLineEnd cs)
      (cs.drop (leadingLineEnd cs).length) (by rwa [hsplit])
    have hbehind : (Template.crlf cs).drop (Template.crlf (leadingLineEnd cs)).length =
        Template.crlf (cs.drop (leadingLineEnd cs).length) := by
      conv_lhs => rw [← hsplit, crlf_append, hsplit]
      exact List.drop_left
    simp only [span, Transcription.crlf, Span.skipLineEnd_eq, leadingLineEnd_crlf hreturn, hoffset,
      hbehind]
  nextOpening hs := nextOpening_crlf hs
  finish hs ho := finish_crlf hs ho

/-- The outcome for a source is that for the same source with line ends of two characters. -/
theorem parse_crlf_eq (h : '\r' ∉ source) (limit : Nat) :
    parse limit (Template.crlf source) =
      (Transcription.crlf source).outcome (mapTexts Template.crlf) (parse limit source) :=
  (faithful_crlf h).buildOnto (.refl (.ofSource source)) limit 0 []

/-- As many line feeds stand in front of an error as before. -/
theorem count_take_crlfError (e : SyntaxError) :
    ((Template.crlf source).take (crlfError source e).offset).count '\n' =
      (source.take e.offset).count '\n' := by
  have hbehind : ∀ (text : List Char) (n : Nat), n ≤ 1 →
      ((Template.crlf text).take n).count '\n' = 0 := by
    intro text n hn
    rcases text with _ | ⟨c, text⟩
    · simp
    · obtain ⟨back, hback⟩ := exists_crlf_cons c text
      have hne : (if c = '\n' then '\r' else c) ≠ '\n' := by
        split
        · decide
        · assumption
      obtain rfl | rfl : n = 0 ∨ n = 1 := by omega
      · simp
      · simp [hback, hne]
  have hsplit : Template.crlf source =
      Template.crlf (source.take e.offset) ++ Template.crlf (source.drop e.offset) := by
    rw [← crlf_append, List.take_append_drop]
  have hle : (if e.defect = .lineFeedInTag then 1 else 0) ≤ 1 := by
    split <;> omega
  rw [hsplit, crlfError, crlfOffset, List.take_length_add_append, List.count_append,
    count_lineFeed_crlf, hbehind _ _ hle, Nat.add_zero]

end Crlf

/-- A source without carriage returns and the same source with line ends of two characters:
the one compiles if and only if the other does, and then to the same nodes but for the line
ends in texts and bodies; or both are refused for the same defect on the same line. -/
theorem parse_crlf (limit : Nat) {source : List Char} (h : '\r' ∉ source) :
    (∀ nodes, parse limit (crlf source) = .ok nodes ↔
      ∃ nodes', parse limit source = .ok nodes' ∧ nodes = mapTexts crlf nodes') ∧
    ∀ e, parse limit source = .error e → ∃ e', parse limit (crlf source) = .error e' ∧
      e'.defect = e.defect ∧ (TemplateError.ofSyntaxIn (crlf source) e').position.line =
        (TemplateError.ofSyntaxIn source e).position.line := by
  rw [parse_crlf_eq h]
  constructor
  · intro nodes
    rcases parse limit source with e | nodes'
    · simp
    · simp [eq_comm]
  · rintro e he
    refine ⟨crlfError source e, by rw [he]; rfl, rfl, ?_⟩
    simp only [TemplateError.ofSyntaxIn, LineIndex.line_position, count_take_crlfError]

def sectionOfLines : List Char := "\x7b\x7b#a\x7d\x7d\nb\n\x7b\x7b/a\x7d\x7d\nc".toList

/-- A section with a tag that a line end cuts short. -/
def sectionOfCutTag : List Char :=
  "\n\x7b\x7b#a\x7d\x7d\n\x7b\x7bb\n\x7d\x7d\x7b\x7b/a\x7d\x7d".toList

theorem parse_crlf_sections :
    ('\r' ∉ sectionOfLines ∧ parse 1 (crlf sectionOfLines) =
      .ok [.block .normal "a" "b\r\n" [.text "b\r\n"], .text "c"]) ∧
    '\r' ∉ sectionOfCutTag ∧ ∃ e, parse 1 (crlf sectionOfCutTag) = .error e ∧
      e.defect = .lineFeedInTag ∧
      (TemplateError.ofSyntaxIn (crlf sectionOfCutTag) e).position.line = 3 := by
  have hlines : '\r' ∉ sectionOfLines := by decide
  have hcut : '\r' ∉ sectionOfCutTag := by decide
  refine ⟨⟨hlines, ((parse_crlf 1 hlines).1 _).2 ⟨[.block .normal "a" "b\n" [.text "b\n"],
    .text "c"], by with_unfolding_all rfl, rfl⟩⟩, hcut, ?_⟩
  obtain ⟨e, he, hdefect, hline⟩ :=
    (parse_crlf 1 hcut).2 ⟨.lineFeedInTag, 11⟩ (by with_unfolding_all rfl)
  exact ⟨e, he, hdefect, hline.trans (by with_unfolding_all rfl)⟩

end Mustache.Template
