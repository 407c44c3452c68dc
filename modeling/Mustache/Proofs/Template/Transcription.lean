import Mustache.Proofs.Template.Scan

/-! Sources written anew. A transcription says what becomes of texts, offsets and errors;
it is faithful if each of the small readers, of an opening, of a tag and of a line end,
treats what is written anew as it treats the original. Main result: compiling then does so
too, whatever sections nest in the source. Reading from another offset on is the first
instance: the nodes stay, and errors move along. -/

namespace Mustache.Template

/-! ### Parts of a span -/

/-- The span `t` is a stretch of `s`, at the offset at which it stands there. -/
def Span.PartOf (t s : Span) : Prop :=
  ∃ front back, s.chars = front ++ (t.chars ++ back) ∧ t.start = s.start + front.length

namespace Span

theorem PartOf.refl (s : Span) : s.PartOf s := ⟨[], [], by simp, rfl⟩

theorem PartOf.trans {r s t : Span} (h : r.PartOf s) (h' : s.PartOf t) : r.PartOf t := by
  obtain ⟨front, back, hchars, hstart⟩ := h
  obtain ⟨front', back', hchars', hstart'⟩ := h'
  refine ⟨front' ++ front, back ++ back', ?_, ?_⟩
  · rw [hchars', hchars]
    simp
  · rw [hstart, hstart', List.length_append, Nat.add_assoc]

theorem partOf_of_append {s t : Span} (front : List Char) (hchars : s.chars = front ++ t.chars)
    (hstop : t.stop = s.stop) : t.PartOf s := by
  refine ⟨front, [], by simp [hchars], ?_⟩
  simp only [stop, hchars, List.length_append] at hstop
  omega

theorem skipLineEnd_partOf (s : Span) : s.skipLineEnd.PartOf s := by
  apply partOf_of_append (leadingLineEnd s.chars) _ s.skipLineEnd_stop
  obtain ⟨start, cs⟩ := s
  rw [skipLineEnd_eq, leadingLineEnd_append_drop]

theorem behindTag_partOf (s : Span) (sigil : Sigil) : (s.behindTag sigil).PartOf s := by
  unfold behindTag
  split
  · exact s.skipLineEnd_partOf
  · exact .refl s

theorem upTo_partOf (s : Span) (n : Nat) : (s.upTo n).PartOf s :=
  ⟨[], s.chars.drop (n - s.start), by simp [upTo], rfl⟩

theorem opening_partOf {s : Span} {o : Opening} (h : s.nextOpening = .ok (some o)) :
    o.rest.PartOf s := by
  obtain ⟨-, hoffset, hchars, hstart, -⟩ := nextOpening_eq_some h
  refine ⟨o.text ++ '{' :: '{' :: o.sigil.chars, [], by simp [hchars], ?_⟩
  simp only [hstart, hoffset, List.length_append, List.length_cons]
  omega

theorem tag_partOf {s r : Span} {o : Opening} {label : String}
    (ho : s.nextOpening = .ok (some o)) (hf : o.finish = .ok (label, r)) : r.PartOf s := by
  obtain ⟨inner, -, -, -, hchars, -, hstop⟩ := tag_read ho hf
  apply partOf_of_append (o.text ++ '{' :: '{' :: (o.sigil.chars ++ inner ++ ['}', '}'])) _ hstop
  rw [hchars]
  simp

theorem sectionEnd_partOf {s : Span} {name : String} {pending : Nat} {e : SectionEnd}
    (h : s.sectionEnd name pending = .ok e) :
    e.rest.PartOf s ∧ s.start ≤ e.start ∧ e.start ≤ s.stop := by
  obtain ⟨body, inner, -, -, hchars, hstart⟩ := sectionEnd_eq_ok h
  obtain ⟨-, -, -, -, -, hstop⟩ := sectionEnd_scan h
  refine ⟨partOf_of_append (body ++ '{' :: '{' :: (Sigil.close.chars ++ inner ++ ['}', '}'])) ?_
    hstop, by omega, ?_⟩
  · rw [hchars]
    simp
  · simp only [stop, hchars, List.length_append]
    omega

end Span

theorem Opening.enclosed_partOf {s : Span} {o : Opening} {sec : SectionSpan}
    (ho : s.nextOpening = .ok (some o)) (h : o.enclosed = .ok sec) :
    sec.body.PartOf s ∧ sec.rest.PartOf s := by
  unfold enclosed at h
  split at h
  · cases h
  · rename_i name behind hf
    have hbehind := (behind.skipLineEnd_partOf).trans (Span.tag_partOf ho hf)
    split at h
    · cases h
    · rename_i close hend
      cases h
      obtain ⟨hrest, -⟩ := Span.sectionEnd_partOf hend
      exact ⟨(Span.upTo_partOf _ _).trans hbehind,
        (close.rest.skipLineEnd_partOf).trans (hrest.trans hbehind)⟩

/-- Literal text up to a tag or the end. -/
theorem exists_text_append (cs : List Char) :
    ∃ text rest, cs = text ++ rest ∧ '{' ∉ text ∧ ∀ c ∈ rest.head?, c = '{' := by
  by_cases hmem : '{' ∈ cs
  · obtain ⟨text, rest, rfl, htext⟩ := List.eq_append_cons_of_mem hmem
    exact ⟨text, '{' :: rest, rfl, htext, by simp⟩
  · exact ⟨cs, [], by simp, hmem, by simp⟩

/-! ### Nodes with their texts written anew -/

mutual

/-- A node with its literal texts and the bodies of its sections written anew. -/
def Node.mapText (f : List Char → List Char) : Node → Node
  | .text content => .text (String.ofList (f content.toList))
  | .field name => .field name
  | .block sense name body children =>
    .block sense name (String.ofList (f body.toList)) (mapTexts f children)
  | .inclusion name => .inclusion name

def mapTexts (f : List Char → List Char) : List Node → List Node
  | [] => []
  | node :: nodes => node.mapText f :: mapTexts f nodes

end

theorem mapTexts_eq_map (f : List Char → List Char) (nodes : List Node) :
    mapTexts f nodes = nodes.map (Node.mapText f) := by
  induction nodes with
  | nil => rfl
  | cons node nodes ih => rw [mapTexts, ih, List.map_cons]

theorem mapTexts_reverse (f : List Char → List Char) (nodes : List Node) :
    mapTexts f nodes.reverse = (mapTexts f nodes).reverse := by
  rw [mapTexts_eq_map, mapTexts_eq_map, List.map_reverse]

mutual

theorem Node.mapText_id (node : Node) : node.mapText id = node := by
  cases node with
  | text content => simp [Node.mapText]
  | field name => rfl
  | block sense name body children => simp [Node.mapText, mapTexts_id children]
  | inclusion name => rfl

theorem mapTexts_id (nodes : List Node) : mapTexts id nodes = nodes := by
  cases nodes with
  | nil => rfl
  | cons node nodes => rw [mapTexts, Node.mapText_id node, mapTexts_id nodes]

end

/-! ### Transcriptions -/

/-- A way to write texts anew, and what becomes of offsets in them and of errors. -/
structure Transcription where
  text : List Char → List Char
  offset : Nat → Nat
  error : SyntaxError → SyntaxError

namespace Transcription

variable (T : Transcription)

def span (s : Span) : Span := ⟨T.offset s.start, T.text s.chars⟩

def opening (o : Opening) : Opening :=
  ⟨T.text o.text, T.offset o.offset, o.sigil, T.span o.rest⟩

def sectionEnd (e : SectionEnd) : SectionEnd := ⟨T.offset e.start, T.span e.rest⟩

def sectionSpan (sec : SectionSpan) : SectionSpan := ⟨sec.name, T.span sec.body, T.span sec.rest⟩

/-- What becomes of an outcome, given what becomes of a result. -/
def outcome {α β : Type} (f : α → β) : Except SyntaxError α → Except SyntaxError β
  | .ok a => .ok (f a)
  | .error e => .error (T.error e)

@[simp] theorem outcome_ok {α β : Type} (f : α → β) (a : α) : T.outcome f (.ok a) = .ok (f a) := rfl

@[simp] theorem outcome_error {α β : Type} (f : α → β) (e : SyntaxError) :
    T.outcome f (.error e) = .error (T.error e) := rfl

/-- The small readers treat what is written anew as they treat the original, on the spans
that are covered. -/
structure Faithful (Covers : Span → Prop) : Prop where
  part {s t : Span} : Covers s → t.PartOf s → Covers t
  text_eq_nil (cs : List Char) : T.text cs = [] ↔ cs = []
  error_structural {d : Defect} (i : Nat) : ¬ d.IsLexical → T.error ⟨d, i⟩ = ⟨d, T.offset i⟩
  stop {s : Span} : Covers s → (T.span s).stop = T.offset s.stop
  upTo {s : Span} {i : Nat} : Covers s → s.start ≤ i → i ≤ s.stop →
    (T.span s).upTo (T.offset i) = T.span (s.upTo i)
  skipLineEnd {s : Span} : Covers s → (T.span s).skipLineEnd = T.span s.skipLineEnd
  nextOpening {s : Span} : Covers s →
    (T.span s).nextOpening = T.outcome (Option.map T.opening) s.nextOpening
  finish {s : Span} {o : Opening} : Covers s → s.nextOpening = .ok (some o) →
    (T.opening o).finish = T.outcome (Prod.map id T.span) o.finish

namespace Faithful

variable {T} {Covers : Span → Prop} (h : T.Faithful Covers)

include h

theorem behindTag {s : Span} (hs : Covers s) (sigil : Sigil) :
    (T.span s).behindTag sigil = T.span (s.behindTag sigil) := by
  unfold Span.behindTag
  split
  · exact h.skipLineEnd hs
  · rfl

theorem consText (text : List Char) (done : List Node) :
    mapTexts T.text (Node.consText text done) =
      Node.consText (T.text text) (mapTexts T.text done) := by
  by_cases hempty : text = []
  · have hempty' : T.text [] = [] := (h.text_eq_nil []).2 rfl
    simp [Node.consText, hempty', hempty]
  · have hempty' : T.text text ≠ [] := fun hnil => hempty ((h.text_eq_nil text).1 hnil)
    simp [Node.consText, hempty, hempty', mapTexts, Node.mapText]

theorem sectionEnd {s : Span} (hs : Covers s) (name : String) (pending : Nat) :
    (T.span s).sectionEnd name pending =
      T.outcome T.sectionEnd (s.sectionEnd name pending) := by
  induction hn : s.chars.length using Nat.strong_induction_on generalizing s pending with
  | h n ih =>
    subst hn
    rw [Span.sectionEnd_eq, Span.sectionEnd_eq, h.nextOpening hs]
    rcases hnext : s.nextOpening with e | _ | o
    · rfl
    · have herror := h.error_structural s.stop (d := .expectedEnd name) id
      simp only [outcome_ok, Option.map_none, outcome_error, herror, h.stop hs]
    · have hfinish := h.finish hs hnext
      simp only [outcome_ok, Option.map_some, hfinish]
      rcases hf : o.finish with e | ⟨label, rest⟩
      · rfl
      · have hsigil : (T.opening o).sigil = o.sigil := rfl
        simp only [outcome_ok, Prod.map_apply, id_eq, hsigil]
        split
        · rfl
        · have hrest : Covers rest := h.part hs (Span.tag_partOf hnext hf)
          exact ih _ (Span.tag_length_lt hnext hf) hrest _ rfl

/-- Sections, with their bodies and what follows them. -/
theorem enclosed {s : Span} {o : Opening} (hs : Covers s) (ho : s.nextOpening = .ok (some o)) :
    (T.opening o).enclosed = T.outcome T.sectionSpan o.enclosed := by
  unfold Opening.enclosed
  rw [h.finish hs ho]
  rcases hf : o.finish with e | ⟨name, behind⟩
  · rfl
  · have hbehind : Covers behind := h.part hs (Span.tag_partOf ho hf)
    have hbody : Covers behind.skipLineEnd := h.part hbehind behind.skipLineEnd_partOf
    simp only [outcome_ok, Prod.map_apply, id_eq, h.skipLineEnd hbehind, h.sectionEnd hbody]
    rcases hend : behind.skipLineEnd.sectionEnd name 0 with e | close
    · rfl
    · obtain ⟨hpart, hfrom, hto⟩ := Span.sectionEnd_partOf hend
      have hrest : Covers close.rest := h.part hbody hpart
      have hupTo := h.upTo hbody hfrom hto
      have hskip := h.skipLineEnd hrest
      simp only [outcome_ok, Transcription.sectionEnd, sectionSpan, hupTo, hskip]

/-- What is written anew compiles to the nodes written anew, or fails as the original. -/
theorem buildOnto {s : Span} (hs : Covers s) (limit depth : Nat) (done : List Node) :
    buildOnto limit depth (mapTexts T.text done) (T.span s) =
      T.outcome (mapTexts T.text) (buildOnto limit depth done s) := by
  induction hn : s.chars.length using Nat.strong_induction_on generalizing s depth done with
  | h n ih =>
    subst hn
    rw [buildOnto_eq, buildOnto_eq, h.nextOpening hs]
    rcases hnext : s.nextOpening with e | _ | o
    · rfl
    · simp only [outcome_ok, Option.map_none, span, mapTexts_reverse, h.consText]
    · have hsigil : (T.opening o).sigil = o.sigil := rfl
      have htext : (T.opening o).text = T.text o.text := rfl
      have hoffset : (T.opening o).offset = T.offset o.offset := rfl
      simp only [outcome_ok, Option.map_some, hsigil, htext, hoffset, ← h.consText]
      cases ho : o.sigil with
      | close => simp only [outcome_error, h.error_structural o.offset (d := .strayEnd) id]
      | block sense =>
        simp only
        split
        · have herror := h.error_structural o.offset (d := .nestingTooDeep limit) id
          rw [outcome_error, herror]
        · rw [h.enclosed hs hnext]
          rcases hsec : o.enclosed with e | sec
          · rfl
          · obtain ⟨hbody, hrest⟩ := Opening.enclosed_partOf hnext hsec
            obtain ⟨hltBody, hltRest⟩ := Opening.enclosed_length_lt hnext hsec
            have hchildren := ih _ hltBody (h.part hs hbody) (depth + 1) [] rfl
            rw [mapTexts] at hchildren
            simp only [outcome_ok, sectionSpan, hchildren]
            rcases hb : Template.buildOnto limit (depth + 1) [] sec.body with e | children
            · rfl
            · have hback := ih _ hltRest (h.part hs hrest) depth
                (.block sense sec.name sec.body.text children :: Node.consText o.text done) rfl
              simp only [mapTexts, Node.mapText, Span.text, String.toList_ofList] at hback
              exact hback
      | field | inclusion | comment =>
        have hfinish := h.finish hs hnext
        simp only [hfinish]
        rcases hf : o.finish with e | ⟨label, behind⟩
        · rfl
        · have hbehind : Covers behind := h.part hs (Span.tag_partOf hnext hf)
          have hlt := Span.tag_length_lt hnext hf
          have hle := behind.behindTag_length_le o.sigil
          have hrest := ih _ (hle.trans_lt hlt)
            (h.part hbehind (behind.behindTag_partOf o.sigil)) depth
            (((o.sigil.alone? label).getD []).reverse ++ Node.consText o.text done) rfl
          rw [← h.behindTag hbehind, ho] at hrest
          exact hrest

end Faithful

/-- The same text, read from `n` characters further ahead. -/
def ahead (n : Nat) : Transcription := ⟨id, (n + ·), SyntaxError.shift n⟩

end Transcription

/-! ### Reading from another offset on -/

section Ahead

open Transcription

variable (n : Nat)

theorem nextOpening_ahead (s : Span) :
    ((ahead n).span s).nextOpening =
      (ahead n).outcome (Option.map (ahead n).opening) s.nextOpening := by
  obtain ⟨start, cs⟩ := s
  simp only [Span.nextOpening, span, ahead, id_eq, Span.stop, Nat.add_assoc]
  split
  · rfl
  · rfl
  · split <;> rfl
  · rfl

theorem closeBraces_ahead (closing : Nat) (s : Span) :
    ((ahead n).span s).closeBraces closing =
      (ahead n).outcome (ahead n).span (s.closeBraces closing) := by
  induction closing generalizing s with
  | zero => rfl
  | succ closing ih =>
    obtain ⟨start, _ | ⟨c, rest⟩⟩ := s
    · rfl
    · by_cases hc : c = '}'
      · subst hc
        exact ih ⟨start + 1, rest⟩
      · simp [Span.closeBraces, span, ahead, SyntaxError.shift, hc]

theorem scanTag_ahead (closing : Nat) (s : Span) :
    ((ahead n).span s).scanTag closing =
      (ahead n).outcome (Prod.map id (ahead n).span) (s.scanTag closing) := by
  obtain ⟨start, cs⟩ := s
  obtain ⟨inner, hinner, rfl | ⟨rest, rfl⟩ | ⟨rest, rfl⟩⟩ := exists_identifier cs
  · simp only [span, ahead, id_eq, Span.scanTag_unclosed hinner, outcome_error,
      SyntaxError.shift, Nat.add_assoc]
  · have hclose := closeBraces_ahead n closing ⟨start + inner.length, '}' :: rest⟩
    simp only [span, ahead, id_eq, ← Nat.add_assoc] at hclose
    simp only [span, ahead, id_eq, Span.scanTag_brace hinner, hclose]
    cases (⟨start + inner.length, '}' :: rest⟩ : Span).closeBraces closing <;> rfl
  · simp only [span, ahead, id_eq, Span.scanTag_lineFeed hinner, outcome_error,
      SyntaxError.shift, Nat.add_assoc]

theorem skipComment_ahead (start : Nat) (cs : List Char) :
    Span.skipComment.go (n + start) cs =
      (ahead n).outcome (ahead n).span (Span.skipComment.go start cs) := by
  fun_induction Span.skipComment.go start cs with
  | case1 start rest => rfl
  | case2 start c rest hpair ih =>
    rw [← ih, Span.skipComment.go]
    · rfl
    · exact hpair
  | case3 start => rfl

theorem finish_ahead (o : Opening) :
    ((ahead n).opening o).finish =
      (ahead n).outcome (Prod.map id (ahead n).span) o.finish := by
  obtain ⟨text, offset, sigil, rest⟩ := o
  cases sigil with
  | comment =>
    have hskip := skipComment_ahead n rest.start rest.chars
    simp only [Opening.finish, opening, Span.skipComment, span, ahead, id_eq] at hskip ⊢
    rw [hskip]
    cases Span.skipComment.go rest.start rest.chars <;> rfl
  | field | block | close | inclusion => exact scanTag_ahead n 2 rest

theorem faithful_ahead : (ahead n).Faithful fun _ => True where
  part _ _ := trivial
  text_eq_nil cs := Iff.rfl
  error_structural _ _ := rfl
  stop {s} _ := Nat.add_assoc n s.start s.chars.length
  upTo {s i} _ _ _ := by
    simp only [Span.upTo, span, ahead, id_eq, Nat.add_sub_add_left]
  skipLineEnd {s} _ := by
    obtain ⟨start, cs⟩ := s
    simp only [span, ahead, id_eq, Span.skipLineEnd_eq, Nat.add_assoc]
  nextOpening {s} _ := nextOpening_ahead n s
  finish {_ o} _ _ := finish_ahead n o

end Ahead

/-- A span that begins further ahead compiles to the same nodes, and fails as far ahead. -/
theorem buildOnto_ahead (n limit depth : Nat) (done : List Node) (start : Nat) (cs : List Char) :
    buildOnto limit depth done ⟨n + start, cs⟩ =
      (buildOnto limit depth done ⟨start, cs⟩).mapError (SyntaxError.shift n) := by
  have h := (faithful_ahead n).buildOnto (s := ⟨start, cs⟩) trivial limit depth done
  simp only [Transcription.ahead, Transcription.span, mapTexts_id, id_eq] at h
  rw [h]
  cases buildOnto limit depth done ⟨start, cs⟩ with
  | error e => rfl
  | ok nodes => simp [Transcription.outcome, Except.mapError, mapTexts_id]

end Mustache.Template
