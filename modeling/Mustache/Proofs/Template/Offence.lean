import Mustache.Proofs.Template.Scan

/-! Where a malformed source is refused. Compiling reads the body of a section once in
search of its end and once more to compile it, on each level with an end of its own, and
which defect it reports is decided by whichever reader meets one first. Main results: a
lexical defect is reported just where one scan of the whole source meets it, and any other
at the first tag that does not fit the sections that are open, or at the end of what the
section encloses that is not closed. -/

namespace Mustache.Template

/-! ### Open sections -/

/-- The sections open behind a tag, by their open tags, the innermost first, when `opened`
are open in front of it. A tag does not fit if it opens a section where `limit` are open,
or is a close tag that does not name the innermost one. -/
def Tag.sectionsBehind (limit : Nat) (opened : List Tag) (t : Tag) : Option (List Tag) :=
  match t.sigil, opened with
  | .block _, _ => if opened.length < limit then some (t :: opened) else none
  | .close, [] => none
  | .close, o :: outer => if t.label = o.label then some outer else none
  | _, _ => some opened

/-- The sections open behind some tags, if each of them fits. -/
def sectionsBehind (limit : Nat) (opened : List Tag) (ts : List Tag) : Option (List Tag) :=
  ts.foldlM (Tag.sectionsBehind limit) opened

theorem sectionsBehind_cons (limit : Nat) (opened : List Tag) (t : Tag) (ts : List Tag) :
    sectionsBehind limit opened (t :: ts) =
      (t.sectionsBehind limit opened).bind fun opened => sectionsBehind limit opened ts :=
  List.foldlM_cons

theorem sectionsBehind_append (limit : Nat) (opened ts ts' : List Tag) :
    sectionsBehind limit opened (ts ++ ts') =
      (sectionsBehind limit opened ts).bind fun opened => sectionsBehind limit opened ts' :=
  List.foldlM_append

theorem sectionsBehind_concat {limit : Nat} {opened opened' opened'' ts : List Tag} {t : Tag}
    (h : sectionsBehind limit opened ts = some opened')
    (ht : t.sectionsBehind limit opened' = some opened'') :
    sectionsBehind limit opened (ts ++ [t]) = some opened'' := by
  rw [sectionsBehind_append, h, Option.bind_some, sectionsBehind_cons, ht]
  rfl

/-- No tag closes the section called `name` in front of them. -/
def StaysOpen (name : String) (ts : List Tag) : Prop :=
  ∃ left, pendingBehind name 0 ts = some left

/-- Among `tags` the tag `c` closes the section that `o` opens: it is a close tag of that
name, and between the two as many sections of that name are closed as opened. -/
def Closes (tags : List Tag) (o c : Tag) : Prop :=
  ∃ before body after, tags = before ++ o :: (body ++ c :: after) ∧
    pendingBehind o.label 0 body = some 0 ∧ c.sigil = .close ∧ c.label = o.label

/-- What is wrong with the rest of a scan behind tags that leave `opened` sections open, and
where: its first tag is a close tag that does not name the innermost of these, or opens a
section where `limit` are open, or one that no tag closes in front of the end of the source
or of the close tag that belongs to the innermost of these. For the first two it is enough
that the scan has met the sigil of a tag, if it meets a lexical defect in the tag. -/
inductive Offence (limit : Nat) (sc : Scan) (stop : Nat) (opened : List Tag) :
    List Tag → SyntaxError → Prop
  | stray {t : Tag} {rest : List Tag} :
      t.sigil = .close → (∀ o ∈ opened.head?, o.label ≠ t.label) →
      Offence limit sc stop opened (t :: rest) ⟨.strayEnd, t.offset⟩
  | strayCut {e : SyntaxError} {offset : Nat} :
      opened = [] → sc.halt = some ⟨e, some (offset, .close)⟩ →
      Offence limit sc stop opened [] ⟨.strayEnd, offset⟩
  | tooDeep {t : Tag} {rest : List Tag} {sense : Sense} :
      t.sigil = .block sense → limit ≤ opened.length →
      Offence limit sc stop opened (t :: rest) ⟨.nestingTooDeep limit, t.offset⟩
  | tooDeepCut {e : SyntaxError} {offset : Nat} {sense : Sense} :
      opened = [] → limit = 0 → sc.halt = some ⟨e, some (offset, .block sense)⟩ →
      Offence limit sc stop opened [] ⟨.nestingTooDeep limit, offset⟩
  | unclosed {t : Tag} {rest : List Tag} {sense : Sense} :
      t.sigil = .block sense → opened = [] → sc.halt = none → StaysOpen t.label rest →
      Offence limit sc stop opened (t :: rest) ⟨.expectedEnd t.label, stop⟩
  | unclosedInside {t o c : Tag} {outer inside rest : List Tag} {sense : Sense} :
      t.sigil = .block sense → opened = o :: outer → Closes sc.tags o c →
      StaysOpen t.label inside →
      Offence limit sc stop opened (t :: (inside ++ c :: rest)) ⟨.expectedEnd t.label, c.offset⟩

/-! ### What compiles -/

/-- Tags that fit where `depth` sections are open, and leave as they are the open sections
and those that are to be closed first in search of the end of any. -/
structure Balanced (limit depth : Nat) (ts : List Tag) : Prop where
  sections : ∀ opened : List Tag, opened.length = depth →
    sectionsBehind limit opened ts = some opened
  pending : ∀ name pending, pendingBehind name pending ts = some pending

namespace Balanced

variable {limit depth : Nat} {ts ts' : List Tag}

theorem nil : Balanced limit depth [] := ⟨fun _ _ => rfl, fun _ _ => rfl⟩

theorem append (h : Balanced limit depth ts) (h' : Balanced limit depth ts') :
    Balanced limit depth (ts ++ ts') where
  sections opened hlength := by
    rw [sectionsBehind_append, h.sections opened hlength]
    exact h'.sections opened hlength
  pending name pending := by
    rw [pendingBehind_append, h.pending]
    exact h'.pending name pending

theorem alone {t : Tag} {nodes : List Node} (h : t.sigil.alone? t.label = some nodes) :
    Balanced limit depth [t] := by
  obtain ⟨offset, sigil, label⟩ := t
  cases sigil with
  | block | close => cases h
  | field | comment | inclusion => exact ⟨fun _ _ => rfl, fun _ _ => rfl⟩

theorem block (hdepth : depth < limit) (h : Balanced limit (depth + 1) ts) (offset stop : Nat)
    (sense : Sense) (name : String) :
    Balanced limit depth
      (⟨offset, .block sense, name⟩ :: (ts ++ [⟨stop, .close, name⟩])) where
  sections opened hlength := by
    have hopen : Tag.sectionsBehind limit opened ⟨offset, .block sense, name⟩ =
        some (⟨offset, .block sense, name⟩ :: opened) := if_pos (hlength ▸ hdepth)
    rw [sectionsBehind_cons, hopen, Option.bind_some, sectionsBehind_append,
      h.sections _ (by simp [hlength])]
    simp [sectionsBehind, Tag.sectionsBehind]
  pending other pending := by
    obtain ⟨inside, hopen, hclose⟩ := exists_pendingAfter other pending sense name
    rw [pendingBehind_cons, hopen, Option.bind_some, pendingBehind_append, h.pending]
    simp only [Option.bind_some, pendingBehind_cons, hclose]
    rfl

end Balanced

/-- The tags of what compiles are balanced, and there is no lexical defect in it. -/
theorem balanced_of_buildOnto {limit depth : Nat} {done out : List Node} {s : Span}
    (h : buildOnto limit depth done s = .ok out) :
    Balanced limit depth s.scan.tags ∧ s.scan.halt = none := by
  induction hn : s.chars.length using Nat.strong_induction_on generalizing s depth done out with
  | h n ih =>
    subst hn
    rw [buildOnto_eq] at h
    split at h
    · cases h
    · rename_i hnext
      rw [Span.scan_eq, hnext]
      exact ⟨.nil, rfl⟩
    · rename_i o ho
      cases hsigil : o.sigil with
      | close => simp [hsigil] at h
      | block sense =>
        simp only [hsigil] at h
        split at h
        · cases h
        · rename_i hdepth
          split at h
          · cases h
          · rename_i sec hsec
            split at h
            · cases h
            · rename_i children hchildren
              obtain ⟨hltBody, hltRest⟩ := Opening.enclosed_length_lt ho hsec
              obtain ⟨hbody, -⟩ := ih _ hltBody hchildren rfl
              obtain ⟨hrest, hhalt⟩ := ih _ hltRest h rfl
              obtain ⟨htags, hhaltEq, -⟩ := Opening.enclosed_scan ho hsigil hsec
              refine ⟨?_, hhaltEq.trans hhalt⟩
              rw [htags]
              have hblock := hbody.block (Nat.lt_of_not_le hdepth) o.offset sec.body.stop
                sense sec.name
              simpa using hblock.append hrest
      | field | inclusion | comment =>
        simp only [hsigil] at h
        split at h
        · cases h
        · rename_i label behind hf
          have hlt := Span.tag_length_lt ho hf
          have hle := behind.behindTag_length_le o.sigil
          rw [hsigil] at hle
          obtain ⟨hrest, hhalt⟩ := ih _ (hle.trans_lt hlt) h rfl
          rw [Span.scan_behindTag] at hrest hhalt
          have halone : Balanced limit depth [⟨o.offset, o.sigil, label⟩] :=
            .alone (by rw [hsigil]; rfl)
          rw [Span.scan_of_tag ho hf]
          exact ⟨halone.append hrest, hhalt⟩

/-! ### What does not compile -/

/-- The span stands in the source behind the tags `before`, which leave `opened` open, and in
front of the tags `after`. If a section is open the span is free of lexical defects, does
not close the innermost one, and ends where its close tag starts. Otherwise it ends where
the source does. -/
structure Within (limit : Nat) (sc : Scan) (stop : Nat) (before opened after : List Tag)
    (s : Span) : Prop where
  tags : sc.tags = before ++ (s.scan.tags ++ after)
  sections : sectionsBehind limit [] before = some opened
  outermost : opened = [] → after = [] ∧ s.stop = stop ∧ s.scan.halt = sc.halt
  inside : ∀ o outer, opened = o :: outer → s.scan.halt = none ∧ StaysOpen o.label s.scan.tags ∧
    ∃ c rest, after = c :: rest ∧ c.offset = s.stop ∧ Closes sc.tags o c

namespace Within

variable {limit stop : Nat} {sc : Scan} {before opened after : List Tag} {s : Span}

/-- A lexical defect can only be met where no section is open. -/
theorem of_halt (h : Within limit sc stop before opened after s) {halt : Halt}
    (hhalt : s.scan.halt = some halt) : opened = [] ∧ sc.halt = some halt := by
  cases opened with
  | nil => exact ⟨rfl, (h.outermost rfl).2.2.symm.trans hhalt⟩
  | cons o outer =>
    obtain ⟨hnone, -⟩ := h.inside o outer rfl
    cases hnone.symm.trans hhalt

/-- A tag that is not finished comes last in the source, and no section is open around it. -/
theorem of_finish_eq_error (h : Within limit sc stop before opened after s) {o : Opening}
    {e : SyntaxError} (ho : s.nextOpening = .ok (some o)) (hf : o.finish = .error e) :
    opened = [] ∧ sc.tags = before ++ [] ∧ sc.halt = some ⟨e, some (o.offset, o.sigil)⟩ := by
  have hscan : s.scan = ⟨[], some ⟨e, some (o.offset, o.sigil)⟩⟩ := by
    rw [Span.scan_eq, ho]
    simp only [hf]
  obtain ⟨rfl, hhalt⟩ := h.of_halt (congrArg Scan.halt hscan)
  obtain ⟨rfl, -⟩ := h.outermost rfl
  have htags := h.tags
  rw [hscan] at htags
  exact ⟨rfl, htags, hhalt⟩

theorem behind (h : Within limit sc stop before opened after s) {ts : List Tag} {s' : Span}
    (hts : Balanced limit opened.length ts) (htags : s.scan.tags = ts ++ s'.scan.tags)
    (hhalt : s.scan.halt = s'.scan.halt) (hstop : s'.stop = s.stop) :
    Within limit sc stop (before ++ ts) opened after s' where
  tags := by rw [h.tags, htags]; simp
  sections := by
    rw [sectionsBehind_append, h.sections]
    exact hts.sections opened rfl
  outermost hnil := by
    rw [hstop, ← hhalt]
    exact h.outermost hnil
  inside o outer hcons := by
    obtain ⟨hnone, ⟨left, hopen⟩, hclosed⟩ := h.inside o outer hcons
    rw [htags, pendingBehind_append, hts.pending, Option.bind_some] at hopen
    rw [hstop, ← hhalt]
    exact ⟨hnone, ⟨left, hopen⟩, hclosed⟩

theorem body (h : Within limit sc stop before opened after s) (hlimit : opened.length < limit)
    {offset : Nat} {sense : Sense} {name : String} {s' : Span} {rest : List Tag}
    (htags : s.scan.tags = ⟨offset, .block sense, name⟩ ::
      (s'.scan.tags ++ ⟨s'.stop, .close, name⟩ :: rest))
    (hhalt : s'.scan.halt = none) (hopen : pendingBehind name 0 s'.scan.tags = some 0) :
    Within limit sc stop (before ++ [⟨offset, .block sense, name⟩])
      (⟨offset, .block sense, name⟩ :: opened) (⟨s'.stop, .close, name⟩ :: (rest ++ after)) s' where
  tags := by rw [h.tags, htags]; simp
  sections := sectionsBehind_concat h.sections (if_pos hlimit)
  outermost := nofun
  inside := by
    rintro o outer ⟨⟩
    refine ⟨hhalt, ⟨0, hopen⟩, _, _, rfl, rfl, before, s'.scan.tags, rest ++ after, ?_, hopen,
      rfl, rfl⟩
    rw [h.tags, htags]
    simp

end Within

/-- What the report of a defect says about the scan of the whole source. -/
def Reported (limit : Nat) (sc : Scan) (stop : Nat) (e : SyntaxError) : Prop :=
  (∃ tag, sc.halt = some ⟨e, tag⟩) ∨ ∃ front rest opened, sc.tags = front ++ rest ∧
    sectionsBehind limit [] front = some opened ∧ Offence limit sc stop opened rest e

namespace Within

variable {limit stop : Nat} {sc : Scan} {before opened after : List Tag} {s : Span}

theorem reported_stray (h : Within limit sc stop before opened after s) {o : Opening}
    (ho : s.nextOpening = .ok (some o)) (hsigil : o.sigil = .close) :
    Reported limit sc stop ⟨.strayEnd, o.offset⟩ := by
  right
  cases hf : o.finish with
  | error e =>
    obtain ⟨rfl, htags, hhalt⟩ := h.of_finish_eq_error ho hf
    rw [hsigil] at hhalt
    exact ⟨before, [], [], htags, h.sections, .strayCut rfl hhalt⟩
  | ok result =>
    obtain ⟨label, rest⟩ := result
    have htags := h.tags
    rw [Span.scan_of_tag ho hf, hsigil] at htags
    refine ⟨before, _, opened, htags, h.sections, .stray rfl fun x hx => ?_⟩
    -- a close tag of the innermost section would have ended the span
    obtain ⟨outer, rfl⟩ := List.head?_eq_some_iff.1 hx
    obtain ⟨-, ⟨left, hopen⟩, -⟩ := h.inside x outer rfl
    rw [Span.scan_of_tag ho hf, hsigil, Scan.cons_tags, pendingBehind_cons] at hopen
    rintro hname
    simp [pendingAfter, hname] at hopen

theorem reported_tooDeep (h : Within limit sc stop before opened after s) {o : Opening}
    {sense : Sense} (ho : s.nextOpening = .ok (some o)) (hsigil : o.sigil = .block sense)
    (hlimit : limit ≤ opened.length) :
    Reported limit sc stop ⟨.nestingTooDeep limit, o.offset⟩ := by
  right
  cases hf : o.finish with
  | error e =>
    obtain ⟨rfl, htags, hhalt⟩ := h.of_finish_eq_error ho hf
    rw [hsigil] at hhalt
    exact ⟨before, [], [], htags, h.sections, .tooDeepCut rfl (Nat.le_zero.1 hlimit) hhalt⟩
  | ok result =>
    obtain ⟨label, rest⟩ := result
    have htags := h.tags
    rw [Span.scan_of_tag ho hf, hsigil] at htags
    exact ⟨before, _, opened, htags, h.sections, .tooDeep rfl hlimit⟩

/-- A section whose end is not found stays open up to the end of the span. -/
theorem reported_enclosed (h : Within limit sc stop before opened after s) {o : Opening}
    {sense : Sense} {e : SyntaxError} (ho : s.nextOpening = .ok (some o))
    (hsigil : o.sigil = .block sense) (henclosed : o.enclosed = .error e) :
    Reported limit sc stop e := by
  obtain ⟨tag, hhalt⟩ | ⟨name, behind, left, hscan, hopen, rfl⟩ :=
    Opening.enclosed_eq_error ho hsigil henclosed
  · exact .inl ⟨tag, (h.of_halt hhalt).2⟩
  · have htags := h.tags
    rw [hscan] at htags
    right
    cases opened with
    | nil =>
      obtain ⟨rfl, hstop, hhalt⟩ := h.outermost rfl
      rw [hscan] at hhalt
      rw [List.append_nil] at htags
      rw [hstop]
      exact ⟨before, _, [], htags, h.sections, .unclosed rfl rfl hhalt.symm ⟨left, hopen⟩⟩
    | cons x outer =>
      obtain ⟨-, -, c, rest, rfl, hoffset, hcloses⟩ := h.inside x outer rfl
      rw [← hoffset]
      exact ⟨before, _, _, htags, h.sections, .unclosedInside rfl rfl hcloses ⟨left, hopen⟩⟩

/-- What is reported of a span is what is wrong with the source. -/
theorem reported (h : Within limit sc stop before opened after s) {done : List Node}
    {e : SyntaxError} (he : buildOnto limit opened.length done s = .error e) :
    Reported limit sc stop e := by
  induction hn : s.chars.length using Nat.strong_induction_on
    generalizing s done before opened after with
  | h n ih =>
    subst hn
    rw [buildOnto_eq] at he
    split at he
    · rename_i hnext
      cases he
      have hscan : s.scan = ⟨[], some ⟨e, none⟩⟩ := by rw [Span.scan_eq, hnext]
      exact .inl ⟨none, (h.of_halt (congrArg Scan.halt hscan)).2⟩
    · cases he
    · rename_i o ho
      cases hsigil : o.sigil with
      | close =>
        simp only [hsigil] at he
        cases he
        exact h.reported_stray ho hsigil
      | block sense =>
        simp only [hsigil] at he
        split at he
        · rename_i hlimit
          cases he
          exact h.reported_tooDeep ho hsigil hlimit
        · rename_i hlimit
          split at he
          · rename_i hsec
            cases he
            exact h.reported_enclosed ho hsigil hsec
          · rename_i sec hsec
            obtain ⟨hltBody, hltRest⟩ := Opening.enclosed_length_lt ho hsec
            obtain ⟨htags, hhalt, hstop, hnone, hopen⟩ := Opening.enclosed_scan ho hsigil hsec
            have hbody := h.body (Nat.lt_of_not_le hlimit) htags hnone hopen
            split at he
            · rename_i hchildren
              cases he
              exact ih _ hltBody hbody hchildren rfl
            · rename_i children hchildren
              obtain ⟨hbalanced, -⟩ := balanced_of_buildOnto hchildren
              have hblock := hbalanced.block (Nat.lt_of_not_le hlimit) o.offset sec.body.stop
                sense sec.name
              have hrest := h.behind hblock (by simp [htags]) hhalt hstop
              exact ih _ hltRest hrest he rfl
      | field | inclusion | comment =>
        simp only [hsigil] at he
        split at he
        · rename_i hf
          cases he
          exact .inl ⟨_, (h.of_finish_eq_error ho hf).2.2⟩
        · rename_i label behind hf
          obtain ⟨-, -, -, -, -, -, hstop⟩ := Span.tag_read ho hf
          have hlt := Span.tag_length_lt ho hf
          have hle := behind.behindTag_length_le o.sigil
          have hscan := Span.scan_of_tag ho hf
          rw [← behind.scan_behindTag o.sigil] at hscan
          have halone : Balanced limit opened.length [⟨o.offset, o.sigil, label⟩] :=
            .alone (by rw [hsigil]; rfl)
          have hrest : Within limit sc stop (before ++ [⟨o.offset, o.sigil, label⟩]) opened after
              (behind.behindTag o.sigil) :=
            h.behind halone (by rw [hscan]; rfl) (by rw [hscan]; rfl)
              ((behind.behindTag_stop o.sigil).trans hstop)
          rw [← hsigil] at he
          exact ih _ (hle.trans_lt hlt) hrest he rfl

end Within

theorem reported_of_parse {limit : Nat} {source : List Char} {e : SyntaxError}
    (h : parse limit source = .error e) : Reported limit (scan source) source.length e := by
  have htop : Within limit (scan source) source.length [] [] [] (Span.ofSource source) :=
    ⟨by simp [scan], rfl, fun _ => ⟨rfl, by simp [Span.ofSource, Span.stop], rfl⟩, nofun⟩
  exact htop.reported h

theorem Offence.not_isLexical {limit stop : Nat} {sc : Scan} {opened rest : List Tag}
    {e : SyntaxError} (h : Offence limit sc stop opened rest e) : ¬ e.defect.IsLexical := by
  cases h <;> exact id

/-- A lexical defect is reported just as one scan of the whole source meets it, whatever
sections it stands in: the first one, and where a text ends too early at the end of the
source. A source without any is refused for none. -/
theorem parse_lexical_defect (limit : Nat) (source : List Char) :
    (∀ e, parse limit source = .error e → e.defect.IsLexical →
      (∃ tag, (scan source).halt = some ⟨e, tag⟩) ∧
        (e.defect = .endOfSource → e.offset = source.length)) ∧
    ((scan source).halt = none → ∀ e, parse limit source = .error e → ¬ e.defect.IsLexical) := by
  have hhalt : ∀ e, parse limit source = .error e → e.defect.IsLexical →
      ∃ tag, (scan source).halt = some ⟨e, tag⟩ := by
    intro e he hlexical
    obtain hhalt | ⟨front, rest, opened, -, -, hoffence⟩ := reported_of_parse he
    · exact hhalt
    · exact absurd hlexical hoffence.not_isLexical
  refine ⟨fun e he hlexical => ?_, fun hnone e he hlexical => ?_⟩
  · obtain ⟨tag, htag⟩ := hhalt e he hlexical
    refine ⟨⟨tag, htag⟩, fun hend => ?_⟩
    simpa [Span.ofSource] using Mode.offset_of_endOfSource htag hend
  · obtain ⟨tag, htag⟩ := hhalt e he hlexical
    cases hnone.symm.trans htag

/-- An open tag without close braces, inside a section that is not closed either. -/
theorem parse_lexical_defect_in_section :
    parse 3 "\x7b\x7b#a\x7d\x7d\x7b\x7bb".toList = .error ⟨.expectedClose, 9⟩ ∧
    ∃ tag, (scan "\x7b\x7b#a\x7d\x7d\x7b\x7bb".toList).halt = some ⟨⟨.expectedClose, 9⟩, tag⟩ := by
  have hparse : parse 3 "\x7b\x7b#a\x7d\x7d\x7b\x7bb".toList = .error ⟨.expectedClose, 9⟩ := by
    with_unfolding_all rfl
  exact ⟨hparse, ((parse_lexical_defect 3 _).1 _ hparse trivial).1⟩

/-- A source that is refused for anything but a lexical defect is refused at the first tag
that does not fit the sections open in front of it, for that tag: one more section than
`limit`, or a close tag that does not name the innermost one. Or the tags in front of it
fit and it opens a section that nothing closes, and then it is refused at the end of what
encloses the section: the end of the source, or the start of the close tag that belongs to
the innermost section around it. -/
theorem parse_structural_defect {limit : Nat} {source : List Char} {e : SyntaxError}
    (h : parse limit source = .error e) (hstructural : ¬ e.defect.IsLexical) :
    (scan source).tags.Pairwise (fun t t' => t.offset < t'.offset) ∧
    ∃ front rest opened, (scan source).tags = front ++ rest ∧
      sectionsBehind limit [] front = some opened ∧
      Offence limit (scan source) source.length opened rest e := by
  refine ⟨(Span.ofSource source).scan_sorted.1, ?_⟩
  obtain ⟨tag, htag⟩ | hoffence := reported_of_parse h
  · exact absurd (Mode.isLexical_of_scan htag) hstructural
  · exact hoffence

/-- Two sections that cross: the inner one ends behind the outer one. -/
def crossed : List Char :=
  "\x7b\x7b#a\x7d\x7d\x7b\x7b#b\x7d\x7d\x7b\x7b/a\x7d\x7d\x7b\x7b/b\x7d\x7d".toList

theorem parse_structural_defect_crossed :
    parse 3 crossed = .error ⟨.expectedEnd "b", 12⟩ ∧
    (scan crossed).tags.Pairwise (fun t t' => t.offset < t'.offset) ∧
    ∃ front rest opened, (scan crossed).tags = front ++ rest ∧
      sectionsBehind 3 [] front = some opened ∧
      Offence 3 (scan crossed) crossed.length opened rest ⟨.expectedEnd "b", 12⟩ := by
  have hparse : parse 3 crossed = .error ⟨.expectedEnd "b", 12⟩ := by
    with_unfolding_all rfl
  exact ⟨hparse, parse_structural_defect hparse id⟩

end Mustache.Template
