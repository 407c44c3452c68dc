import Mustache.Proofs.Template.Transcription

/-! Sources put together. A source that compiles is read to its end whatever follows it: no
search in it goes on behind the place at which it stopped, unless what follows begins with
a line end, which a tag in front of it would take in. Main result: what follows is then
compiled, or refused, as by itself. -/

namespace Mustache.Template

/-! ### Adjacent texts -/

/-- A node in front of others, made one with the first of them if both are texts. -/
def Node.joinTo : Node → List Node → List Node
  | .text a, .text b :: nodes => .text (a ++ b) :: nodes
  | node, nodes => node :: nodes

/-- Nodes with adjacent texts made one. -/
def mergeTexts (nodes : List Node) : List Node := nodes.foldr Node.joinTo []

/-- The nodes are those of `front` and `back`, the last text of the one and the first text
of the other perhaps made one. -/
def Joins (front back nodes : List Node) : Prop :=
  nodes = front ++ back ∨ ∃ init a b rest, front = init ++ [.text a] ∧ back = .text b :: rest ∧
    nodes = init ++ .text (a ++ b) :: rest

theorem Node.joinTo_joinTo (a b : String) (nodes : List Node) :
    (Node.text a).joinTo ((Node.text b).joinTo nodes) = (Node.text (a ++ b)).joinTo nodes := by
  rcases nodes with _ | ⟨node, nodes⟩
  · rfl
  · cases node with
    | text c => simp [Node.joinTo, String.append_assoc]
    | field | block | inclusion => rfl

theorem Joins.mergeTexts_eq {front back nodes : List Node} (h : Joins front back nodes) :
    mergeTexts nodes = mergeTexts (front ++ back) := by
  obtain rfl | ⟨init, a, b, rest, rfl, rfl, rfl⟩ := h
  · rfl
  · simp [mergeTexts, List.foldr_append, Node.joinTo_joinTo]

/-! ### Text in front of a span -/

/-- The nodes that are done come first, whatever follows. -/
theorem buildOnto_append_done (limit depth : Nat) (new done : List Node) (s : Span) :
    buildOnto limit depth (new ++ done) s =
      (buildOnto limit depth new s).map (done.reverse ++ ·) := by
  have hcons : ∀ text new, Node.consText text (new ++ done) = Node.consText text new ++ done := by
    intro text new
    unfold Node.consText
    split <;> rfl
  induction hn : s.chars.length using Nat.strong_induction_on generalizing s depth new with
  | h n ih =>
    subst hn
    rw [buildOnto_eq, buildOnto_eq limit depth new]
    rcases hnext : s.nextOpening with e | _ | o
    · rfl
    · simp [Except.map, hcons]
    · cases hsigil : o.sigil with
      | close => simp [Except.map, hsigil]
      | block sense =>
        simp only [hsigil, hcons]
        split
        · rfl
        · rcases hsec : o.enclosed with e | sec
          · rfl
          · rcases hbody : buildOnto limit (depth + 1) [] sec.body with e | children
            · simp [hbody, Except.map]
            · simp only [hbody]
              exact ih _ (Opening.enclosed_length_lt hnext hsec).2 depth (_ :: _) sec.rest rfl
      | field | inclusion | comment =>
        simp only [hsigil, hcons]
        rcases hf : o.finish with e | ⟨label, behind⟩
        · rfl
        · have hlt := Span.tag_length_lt hnext hf
          have hle := behind.behindTag_length_le o.sigil
          rw [hsigil] at hle
          have hrest := ih _ (hle.trans_lt hlt) depth
            (((o.sigil.alone? label).getD []).reverse ++ Node.consText o.text new) _ rfl
          rw [hsigil, List.append_assoc] at hrest
          exact hrest

theorem buildOnto_done (limit depth : Nat) (done : List Node) (s : Span) :
    buildOnto limit depth done s = (buildOnto limit depth [] s).map (done.reverse ++ ·) :=
  buildOnto_append_done limit depth [] done s

/-- Literal text up to a tag or the end. -/
theorem buildOnto_consText {text rest : List Char} (h : '{' ∉ text)
    (hrest : ∀ c ∈ rest.head?, c = '{') (limit depth start : Nat) (done : List Node) :
    buildOnto limit depth done ⟨start, text ++ rest⟩ =
      buildOnto limit depth (Node.consText text done) ⟨start + text.length, rest⟩ := by
  by_cases hempty : text = []
  · subst hempty
    rfl
  · rw [buildOnto_text ⟨hempty, h, hrest⟩]
    simp [Node.consText, hempty]

/-- An outcome in which the nodes `front` come first, and nothing else is new. -/
def Continues (front : List Node) (x y : Except SyntaxError (List Node)) : Prop :=
  (∀ e, x = .error e → y = .error e) ∧
    ∀ back, x = .ok back → ∃ nodes, y = .ok nodes ∧ Joins front back nodes

/-- Literal text in front of a span changes nothing but the first node. -/
theorem continues_text {text : List Char} (h : '{' ∉ text) (limit depth start : Nat)
    (done : List Node) (cs : List Char) :
    Continues (Node.consText text done).reverse
      (buildOnto limit depth [] ⟨start + text.length, cs⟩)
      (buildOnto limit depth done ⟨start, text ++ cs⟩) := by
  obtain ⟨text', rest, rfl, htext', hrest⟩ := exists_text_append cs
  have hmem : '{' ∉ text ++ text' := by simp [h, htext']
  rw [← List.append_assoc, buildOnto_consText hmem hrest, buildOnto_consText htext' hrest,
    List.length_append, ← Nat.add_assoc, buildOnto_done,
    buildOnto_done _ _ (Node.consText (text ++ text') done)]
  rcases buildOnto limit depth [] ⟨start + text.length + text'.length, rest⟩ with e | nodes
  · exact ⟨fun _ he => he, nofun⟩
  · refine ⟨nofun, ?_⟩
    rintro back ⟨⟩
    refine ⟨_, rfl, ?_⟩
    by_cases hempty : text = [] <;> by_cases hempty' : text' = []
    · exact .inl (by simp [Node.consText, hempty, hempty'])
    · exact .inl (by simp [Node.consText, hempty, hempty'])
    · exact .inl (by simp [Node.consText, hempty, hempty'])
    · exact .inr ⟨done.reverse, String.ofList text, String.ofList text', nodes,
        by simp [Node.consText, hempty], by simp [Node.consText, hempty'],
        by simp [Node.consText, hempty]⟩

/-! ### Text behind a span -/

/-- The span with more text behind it. -/
def Span.followedBy (s : Span) (tail : List Char) : Span := ⟨s.start, s.chars ++ tail⟩

section FollowedBy

variable {s r : Span} {o : Opening} {label : String} (tail : List Char)

/-- A tag that was read through is read through as well if more text follows the span. -/
theorem Span.tag_followedBy (ho : s.nextOpening = .ok (some o)) (hf : o.finish = .ok (label, r)) :
    ∃ o', (s.followedBy tail).nextOpening = .ok (some o') ∧ o'.text = o.text ∧
      o'.offset = o.offset ∧ o'.sigil = o.sigil ∧ o'.finish = .ok (label, r.followedBy tail) := by
  obtain ⟨inner, hinner, rfl, htext, hchars, hoffset, hstop⟩ := tag_read ho hf
  have hstart : o.offset + 2 + o.sigil.chars.length + inner.length + 2 = r.start := by
    simp only [stop, hchars, List.length_append, List.length_cons] at hstop
    omega
  have hfollowed : s.followedBy tail = ⟨s.start, o.text ++
      '{' :: '{' :: (o.sigil.chars ++ inner ++ '}' :: '}' :: (r.chars ++ tail))⟩ := by
    simp [followedBy, hchars]
  have hfinish := Opening.finish_tag hinner o.text o.offset
    (o.offset + 2 + o.sigil.chars.length) (r.chars ++ tail)
  rw [hstart] at hfinish
  refine ⟨⟨o.text, o.offset, o.sigil, ⟨o.offset + 2 + o.sigil.chars.length,
    inner ++ '}' :: '}' :: (r.chars ++ tail)⟩⟩, ?_, rfl, rfl, rfl, hfinish⟩
  rw [hfollowed, nextOpening_append htext, nextOpening_tag hinner, hoffset]
  simp [Except.map]

theorem Span.sectionEnd_followedBy {name : String} {pending : Nat} {e : SectionEnd}
    (h : s.sectionEnd name pending = .ok e) :
    (s.followedBy tail).sectionEnd name pending = .ok ⟨e.start, e.rest.followedBy tail⟩ := by
  induction hn : s.chars.length using Nat.strong_induction_on generalizing s pending with
  | h n ih =>
    subst hn
    rw [sectionEnd_eq] at h
    split at h
    · cases h
    · cases h
    · rename_i o ho
      split at h
      · cases h
      · rename_i label rest hf
        obtain ⟨o', ho', -, hoffset, hsigil, hf'⟩ := tag_followedBy tail ho hf
        cases hpending : pendingAfter name pending o.sigil label with
        | none =>
          simp only [hpending, Except.ok.injEq] at h
          subst h
          rw [sectionEnd_eq, ho']
          simp only [hf', hsigil, hoffset, hpending]
        | some pending' =>
          simp only [hpending] at h
          rw [sectionEnd_eq, ho']
          simp only [hf', hsigil, hpending]
          exact ih _ (tag_length_lt ho hf) h rfl

variable {tail}

theorem leadingLineEnd_append (htail : leadingLineEnd tail = []) (cs : List Char) :
    leadingLineEnd (cs ++ tail) = leadingLineEnd cs := by
  match cs with
  | [] => exact htail
  | [c] =>
    rcases tail with _ | ⟨d, tail⟩
    · rfl
    · have hd : d ≠ '\n' := by
        rintro rfl
        exact absurd htail (by simp [leadingLineEnd])
      simp only [List.cons_append, List.nil_append]
      unfold leadingLineEnd
      split <;> simp_all
  | c :: d :: rest =>
    simp only [List.cons_append]
    unfold leadingLineEnd
    split <;> simp_all

theorem Span.skipLineEnd_followedBy (htail : leadingLineEnd tail = []) (s : Span) :
    (s.followedBy tail).skipLineEnd = s.skipLineEnd.followedBy tail := by
  obtain ⟨start, cs⟩ := s
  have hle : (leadingLineEnd cs).length ≤ cs.length := by
    have hsplit := congrArg List.length (leadingLineEnd_append_drop cs)
    rw [List.length_append] at hsplit
    omega
  simp only [followedBy, skipLineEnd_eq, leadingLineEnd_append htail]
  rw [List.drop_append_of_le_length hle]

theorem Span.behindTag_followedBy (htail : leadingLineEnd tail = []) (s : Span) (sigil : Sigil) :
    (s.followedBy tail).behindTag sigil = (s.behindTag sigil).followedBy tail := by
  unfold behindTag
  split
  · exact skipLineEnd_followedBy htail s
  · rfl

theorem Opening.enclosed_followedBy (htail : leadingLineEnd tail = []) {sec : SectionSpan}
    (ho : s.nextOpening = .ok (some o)) (h : o.enclosed = .ok sec) :
    ∃ o', (s.followedBy tail).nextOpening = .ok (some o') ∧ o'.text = o.text ∧
      o'.sigil = o.sigil ∧
      o'.enclosed = .ok ⟨sec.name, sec.body, sec.rest.followedBy tail⟩ := by
  unfold enclosed at h
  split at h
  · cases h
  · rename_i name behind hf
    obtain ⟨o', ho', htext, -, hsigil, hf'⟩ := Span.tag_followedBy tail ho hf
    split at h
    · cases h
    · rename_i close hend
      cases h
      obtain ⟨-, hfrom, hto⟩ := Span.sectionEnd_partOf hend
      have hle : close.start - behind.skipLineEnd.start ≤ behind.skipLineEnd.chars.length := by
        simp only [Span.stop] at hto
        omega
      have hbody : (behind.skipLineEnd.followedBy tail).upTo close.start =
          behind.skipLineEnd.upTo close.start := by
        simp only [Span.upTo, Span.followedBy, List.take_append_of_le_length hle]
      refine ⟨o', ho', htext, hsigil, ?_⟩
      unfold enclosed
      simp only [hf', Span.skipLineEnd_followedBy htail, Span.sectionEnd_followedBy tail hend,
        hbody]

/-- A span that compiles is read up to its last tag, and the literal text behind that goes on
with what follows the span. -/
theorem buildOnto_followedBy (htail : leadingLineEnd tail = []) {limit depth : Nat}
    {done out : List Node} (h : buildOnto limit depth done s = .ok out) :
    ∃ text done' offset, '{' ∉ text ∧ offset + text.length = s.stop ∧
      out = (Node.consText text done').reverse ∧
      buildOnto limit depth done (s.followedBy tail) =
        buildOnto limit depth done' ⟨offset, text ++ tail⟩ := by
  induction hn : s.chars.length using Nat.strong_induction_on generalizing s done with
  | h n ih =>
    subst hn
    rw [buildOnto_eq] at h
    split at h
    · cases h
    · rename_i hnext
      exact ⟨s.chars, done, s.start, Span.not_mem_of_nextOpening hnext, rfl,
        (Except.ok.inj h).symm, rfl⟩
    · rename_i o ho
      cases hsigil : o.sigil with
      | close => simp [hsigil] at h
      | block sense =>
        simp only [hsigil] at h
        split at h
        · cases h
        · rename_i hdepth
          split at h
          · cases h
          · rename_i sec hsec
            split at h
            · cases h
            · rename_i children hchildren
              obtain ⟨-, -, hstop, -⟩ := Opening.enclosed_scan ho hsigil hsec
              obtain ⟨o', ho', htext, hsigil', hsec'⟩ :=
                Opening.enclosed_followedBy htail ho hsec
              obtain ⟨text, done', offset, hbrace, hoffset, hout, hbuild⟩ :=
                ih _ (Opening.enclosed_length_lt ho hsec).2 h rfl
              refine ⟨text, done', offset, hbrace, hoffset.trans hstop, hout, ?_⟩
              rw [← hbuild, buildOnto_eq, ho']
              simp only [hsigil', hsigil, hsec', hchildren, htext]
              rw [if_neg hdepth]
      | field | inclusion | comment =>
        simp only [hsigil] at h
        split at h
        · cases h
        · rename_i label behind hf
          have hlt := Span.tag_length_lt ho hf
          have hle := behind.behindTag_length_le o.sigil
          rw [hsigil] at hle
          obtain ⟨-, -, -, -, -, -, hstop⟩ := Span.tag_read ho hf
          obtain ⟨o', ho', htext, -, hsigil', hf'⟩ := Span.tag_followedBy tail ho hf
          obtain ⟨text, done', offset, hbrace, hoffset, hout, hbuild⟩ :=
            ih _ (hle.trans_lt hlt) h rfl
          rw [Span.behindTag_stop, hstop] at hoffset
          refine ⟨text, done', offset, hbrace, hoffset, hout, ?_⟩
          rw [← hbuild, buildOnto_eq, ho']
          simp only [hsigil', hsigil, hf', htext, Span.behindTag_followedBy htail]

/-- What follows a span that compiles is compiled as by itself. -/
theorem continues_followedBy (htail : leadingLineEnd tail = []) {limit depth : Nat}
    {done out : List Node} (h : buildOnto limit depth done s = .ok out) :
    Continues out (buildOnto limit depth [] ⟨s.stop, tail⟩)
      (buildOnto limit depth done (s.followedBy tail)) := by
  obtain ⟨text, done', offset, hbrace, hoffset, rfl, hbuild⟩ := buildOnto_followedBy htail h
  rw [hbuild, ← hoffset]
  exact continues_text hbrace limit depth offset done' tail

end FollowedBy

theorem buildOnto_at (limit n : Nat) (source : List Char) :
    buildOnto limit 0 [] ⟨n, source⟩ = (parse limit source).mapError (SyntaxError.shift n) :=
  buildOnto_ahead n limit 0 [] 0 source

/-- A source that compiles, and behind it one that does not begin with a line end: together
they compile to the nodes of both, two texts where they meet made one, or they are refused
as the second one is by itself, as far ahead as the first one is long. -/
theorem parse_append (limit : Nat) {front back : List Char} {nodes : List Node}
    (h : parse limit front = .ok nodes) (hback : leadingLineEnd back = []) :
    (∀ nodes', parse limit back = .ok nodes' → ∃ all, parse limit (front ++ back) = .ok all ∧
      Joins nodes nodes' all ∧ mergeTexts all = mergeTexts (nodes ++ nodes')) ∧
    ∀ e, parse limit back = .error e →
      parse limit (front ++ back) = .error (e.shift front.length) := by
  have hcontinues := continues_followedBy hback h
  have hstop : (Span.ofSource front).stop = front.length := Nat.zero_add _
  rw [hstop, buildOnto_at] at hcontinues
  obtain ⟨herror, hok⟩ := hcontinues
  constructor
  · intro nodes' h'
    obtain ⟨all, hall, hjoins⟩ := hok nodes' (by rw [h']; rfl)
    exact ⟨all, hall, hjoins, hjoins.mergeTexts_eq⟩
  · intro e he
    exact herror _ (by rw [he]; rfl)

def sectionThenText : List Char := "\x7b\x7b#a\x7d\x7dx\x7b\x7b/a\x7d\x7dt".toList

/-- Two texts meet, and an open tag that is cut short is refused where the whole ends. -/
theorem parse_append_textsMeet :
    parse 1 sectionThenText = .ok [.block .normal "a" "x" [.text "x"], .text "t"] ∧
    (leadingLineEnd "u\x7b\x7bb\x7d\x7d".toList = [] ∧
      ∃ all, parse 1 (sectionThenText ++ "u\x7b\x7bb\x7d\x7d".toList) = .ok all ∧
        mergeTexts all = [.block .normal "a" "x" [.text "x"], .text "tu", .field "b"]) ∧
    (leadingLineEnd "u\x7b\x7b".toList = [] ∧
      parse 1 (sectionThenText ++ "u\x7b\x7b".toList) = .error ⟨.endOfSource, 17⟩) := by
  have hfront : parse 1 sectionThenText =
      .ok [.block .normal "a" "x" [.text "x"], .text "t"] := by
    with_unfolding_all rfl
  refine ⟨hfront, ⟨rfl, ?_⟩, rfl, ?_⟩
  · obtain ⟨hok, -⟩ := @parse_append 1 _ "u\x7b\x7bb\x7d\x7d".toList _ hfront rfl
    obtain ⟨all, hall, -, hmerge⟩ := hok [.text "u", .field "b"] (by with_unfolding_all rfl)
    exact ⟨all, hall, hmerge⟩
  · obtain ⟨-, herror⟩ := @parse_append 1 _ "u\x7b\x7b".toList _ hfront rfl
    exact herror ⟨.endOfSource, 3⟩ (by with_unfolding_all rfl)

end Mustache.Template
