import Mustache.Proofs.Template.Nesting

/-! One scan of a text. It reads the characters from left to right, each of them once, and
knows nothing of sections: what it yields are the tags in the order in which they start, up
to the first lexical defect if the text has one. Main results: `Span.scan_eq`, that reading
tag by tag with `Span.nextOpening` and `Opening.finish` meets the same tags and the same
defect, and what the search for the end of a section amounts to in terms of the scan. -/

namespace Mustache.Template

/-- A tag of a text: the offset of its first open brace, its kind and its identifier. -/
structure Tag where
  offset : Nat
  sigil : Sigil
  label : String
deriving DecidableEq, Repr

/-- The defect at which a scan ends early, and the tag in which it was met, by its offset
and kind, if the scan had got as far as that. -/
structure Halt where
  error : SyntaxError
  tag : Option (Nat × Sigil)
deriving DecidableEq, Repr

/-- What a scan yields. -/
structure Scan where
  tags : List Tag
  halt : Option Halt
deriving DecidableEq, Repr

/-- A scan that meets one more tag first. -/
def Scan.cons (t : Tag) (sc : Scan) : Scan := { sc with tags := t :: sc.tags }

@[simp] theorem Scan.cons_tags (t : Tag) (sc : Scan) : (sc.cons t).tags = t :: sc.tags := rfl

@[simp] theorem Scan.cons_halt (t : Tag) (sc : Scan) : (sc.cons t).halt = sc.halt := rfl

/-- What a scan has read of the text around the next character: nothing but literal text,
one or two open braces, a sigil and some of an identifier, the first close brace behind
one, or some of a comment, perhaps with one close brace last. -/
inductive Mode
  | text
  | brace (start : Nat)
  | braces (start : Nat)
  | name (start : Nat) (sigil : Sigil) (inner : List Char)
  | closing (start : Nat) (sigil : Sigil) (inner : List Char)
  | comment (start : Nat)
  | commentClosing (start : Nat)

namespace Mode

/-- Reads a character of an identifier. -/
def readName (start : Nat) (sigil : Sigil) (inner : List Char) (offset : Nat) (c : Char) :
    Except Halt Mode :=
  if c = '}' then .ok (.closing start sigil inner)
  else if c = '\n' then .error ⟨⟨.lineFeedInTag, offset⟩, some (start, sigil)⟩
  else .ok (.name start sigil (inner ++ [c]))

/-- What has been read with the sigil of a tag. -/
def ofSigil (start : Nat) : Sigil → Mode
  | .comment => .comment start
  | sigil => .name start sigil []

/-- Reads the character at an offset. A tag that it ends is put out. -/
def read (offset : Nat) (c : Char) : Mode → Except Halt (Mode × Option Tag)
  | .text => .ok (if c = '{' then .brace offset else .text, none)
  | .brace start =>
    if c = '{' then .ok (.braces start, none) else .error ⟨⟨.expectedOpen, start⟩, none⟩
  | .braces start =>
    match Sigil.ofChar? c with
    | some sigil => .ok (ofSigil start sigil, none)
    | none => (readName start .field [] offset c).map (·, none)
  | .name start sigil inner => (readName start sigil inner offset c).map (·, none)
  | .closing start sigil inner =>
    if c = '}' then .ok (.text, some ⟨start, sigil, sigil.label inner⟩)
    else .error ⟨⟨.expectedClose, offset⟩, some (start, sigil)⟩
  | .comment start => .ok (if c = '}' then .commentClosing start else .comment start, none)
  | .commentClosing start =>
    if c = '}' then .ok (.text, some ⟨start, .comment, ""⟩) else .ok (.comment start, none)

/-- The defect of a text that ends at an offset, unless it ends with literal text. -/
def atEnd (offset : Nat) : Mode → Option Halt
  | .text => none
  | .brace start => some ⟨⟨.expectedOpen, start⟩, none⟩
  | .braces _ => some ⟨⟨.endOfSource, offset⟩, none⟩
  | .name start sigil _ | .closing start sigil _ =>
    some ⟨⟨.expectedClose, offset⟩, some (start, sigil)⟩
  | .comment start | .commentClosing start =>
    some ⟨⟨.expectedClose, offset⟩, some (start, .comment)⟩

def scan : Mode → Nat → List Char → Scan
  | mode, offset, [] => ⟨[], mode.atEnd offset⟩
  | mode, offset, c :: cs =>
    match mode.read offset c with
    | .error halt => ⟨[], some halt⟩
    | .ok (next, none) => next.scan (offset + 1) cs
    | .ok (next, some t) => (next.scan (offset + 1) cs).cons t

end Mode

def Span.scan (s : Span) : Scan := Mode.text.scan s.start s.chars

def scan (source : List Char) : Scan := (Span.ofSource source).scan

/-- A close brace that is not one of a pair belongs to a comment, and spaces around an
identifier do not belong to it. -/
example : scan "\x7b\x7b!a\x7db\x7d\x7d\x7b\x7b/ n \x7d\x7d\x7b".toList =
    ⟨[⟨0, .comment, ""⟩, ⟨8, .close, "n"⟩], some ⟨⟨.expectedOpen, 16⟩, none⟩⟩ := by decide

/-! ### Tag by tag -/

namespace Mode

theorem scan_text_append {front : List Char} (h : '{' ∉ front) (offset : Nat) (cs : List Char) :
    text.scan offset (front ++ cs) = text.scan (offset + front.length) cs := by
  induction front generalizing offset with
  | nil => rfl
  | cons c front ih =>
    rw [List.mem_cons, not_or] at h
    have hread : text.read offset c = .ok (.text, none) := by simp [read, Ne.symm h.1]
    rw [List.cons_append, scan, hread]
    simp only
    rw [ih h.2, List.length_cons]
    congr 1
    omega

theorem scan_name_append {inner : List Char} (h : '}' ∉ inner ∧ '\n' ∉ inner) (start : Nat)
    (sigil : Sigil) (done : List Char) (offset : Nat) (cs : List Char) :
    (name start sigil done).scan offset (inner ++ cs) =
      (name start sigil (done ++ inner)).scan (offset + inner.length) cs := by
  induction inner generalizing done offset with
  | nil => simp
  | cons c inner ih =>
    simp only [List.mem_cons, not_or] at h
    have hread : (name start sigil done).read offset c =
        .ok (.name start sigil (done ++ [c]), none) := by
      simp [read, readName, Ne.symm h.1.1, Ne.symm h.2.1, Except.map]
    rw [List.cons_append, scan, hread]
    simp only
    rw [ih ⟨h.1.2, h.2.2⟩, List.append_assoc, List.length_cons]
    congr 1
    omega

theorem scan_name_eq (start : Nat) {sigil : Sigil} (hsigil : sigil ≠ .comment) (s : Span) :
    (name start sigil []).scan s.start s.chars =
      match s.scanTag 2 with
      | .error e => ⟨[], some ⟨e, some (start, sigil)⟩⟩
      | .ok (label, rest) => rest.scan.cons ⟨start, sigil, label⟩ := by
  obtain ⟨offset, cs⟩ := s
  obtain ⟨inner, hinner, rfl | ⟨rest, rfl⟩ | ⟨rest, rfl⟩⟩ := exists_identifier cs
  · have happend := scan_name_append hinner start sigil [] offset []
    rw [List.append_nil, List.nil_append] at happend
    rw [Span.scanTag_unclosed hinner, happend]
    rfl
  · have hlabel : sigil.label inner = String.ofList (trimSpaces inner) := by
      cases sigil with
      | comment => exact absurd rfl hsigil
      | _ => rfl
    rw [scan_name_append hinner, Span.scanTag_brace hinner]
    rcases rest with _ | ⟨c, rest⟩
    · rfl
    · by_cases hc : c = '}'
      · subst hc
        simp [scan, read, readName, Except.map, Span.closeBraces, Span.scan, hlabel]
      · simp [scan, read, readName, Except.map, Span.closeBraces, hc]
  · rw [scan_name_append hinner, Span.scanTag_lineFeed hinner]
    rfl

theorem scan_commentClosing {c : Char} (hc : c ≠ '}') (start offset : Nat) (cs : List Char) :
    (commentClosing start).scan offset (c :: cs) = (comment start).scan offset (c :: cs) := by
  simp [scan, read, hc]

theorem scan_comment_eq (start : Nat) (offset : Nat) (cs : List Char) :
    (comment start).scan offset cs =
      match Span.skipComment.go offset cs with
      | .error e => ⟨[], some ⟨e, some (start, .comment)⟩⟩
      | .ok rest => rest.scan.cons ⟨start, .comment, ""⟩ := by
  fun_induction Span.skipComment.go offset cs with
  | case1 offset rest => rfl
  | case2 offset c rest hpair ih =>
    rw [← ih]
    by_cases hc : c = '}'
    · subst hc
      cases rest with
      | nil => rfl
      | cons d rest =>
        have hd : d ≠ '}' := by
          rintro rfl
          exact hpair rest rfl rfl
        rw [← scan_commentClosing hd]
        rfl
    · simp [scan, read, hc]
  | case3 offset => rfl

theorem scan_ofSigil (o : Opening) :
    (ofSigil o.offset o.sigil).scan o.rest.start o.rest.chars =
      match o.finish with
      | .error e => ⟨[], some ⟨e, some (o.offset, o.sigil)⟩⟩
      | .ok (label, rest) => rest.scan.cons ⟨o.offset, o.sigil, label⟩ := by
  obtain ⟨front, offset, sigil, rest⟩ := o
  cases sigil with
  | comment =>
    simp only [ofSigil, Opening.finish, scan_comment_eq, Span.skipComment]
    cases Span.skipComment.go rest.start rest.chars <;> rfl
  | field | block | close | inclusion =>
    simp only [ofSigil, Opening.finish]
    exact scan_name_eq offset (by simp) rest

end Mode

theorem Mode.scan_braces (start offset : Nat) (c : Char) (rest : List Char) :
    (braces start).scan offset (c :: rest) =
      match Sigil.ofChar? c with
      | some sigil => (ofSigil start sigil).scan (offset + 1) rest
      | none => (ofSigil start .field).scan offset (c :: rest) := by
  cases hsigil : Sigil.ofChar? c with
  | some sigil => simp [scan, read, hsigil]
  | none => simp [scan, read, ofSigil, hsigil]

theorem Span.scan_eq (s : Span) : s.scan =
    match s.nextOpening with
    | .error e => ⟨[], some ⟨e, none⟩⟩
    | .ok none => ⟨[], none⟩
    | .ok (some o) =>
      match o.finish with
      | .error e => ⟨[], some ⟨e, some (o.offset, o.sigil)⟩⟩
      | .ok (label, rest) => rest.scan.cons ⟨o.offset, o.sigil, label⟩ := by
  obtain ⟨start, cs⟩ := s
  by_cases hmem : '{' ∈ cs
  · obtain ⟨front, back, rfl, hfront⟩ := List.eq_append_cons_of_mem hmem
    rw [nextOpening_append hfront, scan, Mode.scan_text_append hfront]
    generalize start + front.length = offset
    rcases back with _ | ⟨b, _ | ⟨c, rest⟩⟩
    · rfl
    · by_cases hb : b = '{'
      · subst hb
        rfl
      · simp [nextOpening, Except.map, Mode.scan, Mode.read, hb]
    · by_cases hb : b = '{'
      · subst hb
        change (Mode.braces offset).scan (offset + 2) (c :: rest) = _
        rw [Mode.scan_braces, nextOpening_braces]
        cases Sigil.ofChar? c with
        | some sigil => exact Mode.scan_ofSigil ⟨front ++ [], offset, sigil, ⟨offset + 3, rest⟩⟩
        | none => exact Mode.scan_ofSigil ⟨front ++ [], offset, .field, ⟨offset + 2, c :: rest⟩⟩
      · simp [nextOpening, Except.map, Mode.scan, Mode.read, hb]
  · have hscan := Mode.scan_text_append hmem start []
    rw [List.append_nil] at hscan
    rw [nextOpening_of_not_mem hmem, scan, hscan]
    rfl

theorem Span.scan_of_tag {s rest : Span} {o : Opening} {label : String}
    (ho : s.nextOpening = .ok (some o)) (hf : o.finish = .ok (label, rest)) :
    s.scan = rest.scan.cons ⟨o.offset, o.sigil, label⟩ := by
  rw [scan_eq, ho]
  simp only [hf]

theorem Span.scan_append {front : List Char} (h : '{' ∉ front) (start : Nat) (cs : List Char) :
    (⟨start, front ++ cs⟩ : Span).scan = (⟨start + front.length, cs⟩ : Span).scan :=
  Mode.scan_text_append h start cs

theorem Span.scan_text {cs : List Char} (h : '{' ∉ cs) (start : Nat) :
    (⟨start, cs⟩ : Span).scan = ⟨[], none⟩ := by
  rw [scan_eq, nextOpening_of_not_mem h]

theorem Span.scan_skipLineEnd (s : Span) : s.skipLineEnd.scan = s.scan := by
  obtain ⟨start, cs⟩ := s
  have hbrace : '{' ∉ leadingLineEnd cs := by
    unfold leadingLineEnd
    split <;> simp
  rw [skipLineEnd_eq, ← scan_append hbrace, leadingLineEnd_append_drop]

theorem Span.behindTag_stop (s : Span) (sigil : Sigil) : (s.behindTag sigil).stop = s.stop := by
  unfold behindTag
  split
  · exact s.skipLineEnd_stop
  · rfl

theorem Span.scan_behindTag (s : Span) (sigil : Sigil) : (s.behindTag sigil).scan = s.scan := by
  unfold behindTag
  split
  · exact s.scan_skipLineEnd
  · rfl

theorem Span.scan_tag_append {front : List Char} (h : '{' ∉ front) {sigil : Sigil}
    {inner : List Char} (hinner : sigil.Admits inner) (start : Nat) (rest : List Char) :
    (⟨start, front ++ '{' :: '{' :: (sigil.chars ++ inner ++ '}' :: '}' :: rest)⟩ : Span).scan =
      (⟨start + front.length + 2 + sigil.chars.length + inner.length + 2, rest⟩ : Span).scan.cons
        ⟨start + front.length, sigil, sigil.label inner⟩ := by
  rw [scan_append h, scan_eq, nextOpening_tag hinner]
  simp only [Opening.finish_tag hinner]

namespace Mode

theorem defect_of_readName {start : Nat} {sigil : Sigil} {inner : List Char} {offset : Nat}
    {c : Char} {halt : Halt} (h : readName start sigil inner offset c = .error halt) :
    halt.error.defect = .lineFeedInTag := by
  unfold readName at h
  split at h
  · cases h
  · split at h <;> cases h
    rfl

/-- A character is refused for what it is, not for the want of another one. -/
theorem defect_of_read {mode : Mode} {offset : Nat} {c : Char} {halt : Halt}
    (h : mode.read offset c = .error halt) :
    halt.error.defect.IsLexical ∧ halt.error.defect ≠ .endOfSource := by
  have hname : ∀ {start sigil inner}, (readName start sigil inner offset c).map
      (fun next => (next, (none : Option Tag))) = .error halt →
      halt.error.defect.IsLexical ∧ halt.error.defect ≠ .endOfSource := by
    intro start sigil inner hmap
    cases hread : readName start sigil inner offset c with
    | ok next => simp [hread, Except.map] at hmap
    | error halt' =>
      obtain rfl : halt' = halt := by simpa [hread, Except.map] using hmap
      rw [defect_of_readName hread]
      exact ⟨trivial, nofun⟩
  cases mode with
  | text | comment => cases h
  | brace | closing =>
    rw [read] at h
    split at h <;> cases h
    exact ⟨trivial, nofun⟩
  | commentClosing =>
    rw [read] at h
    split at h <;> cases h
  | braces =>
    rw [read] at h
    split at h
    · cases h
    · exact hname h
  | name => exact hname h

theorem isLexical_of_scan {mode : Mode} {offset : Nat} {cs : List Char} {halt : Halt}
    (h : (mode.scan offset cs).halt = some halt) : halt.error.defect.IsLexical := by
  induction cs generalizing mode offset with
  | nil => cases mode <;> cases h <;> trivial
  | cons c cs ih =>
    rw [scan] at h
    split at h
    · rename_i hread
      cases h
      exact (defect_of_read hread).1
    · exact ih h
    · exact ih h

theorem offset_of_endOfSource {mode : Mode} {offset : Nat} {cs : List Char} {halt : Halt}
    (h : (mode.scan offset cs).halt = some halt) (hend : halt.error.defect = .endOfSource) :
    halt.error.offset = offset + cs.length := by
  induction cs generalizing mode offset with
  | nil =>
    cases mode with
    | braces =>
      cases h
      rfl
    | _ => cases h <;> cases hend
  | cons c cs ih =>
    rw [scan] at h
    have hlength : offset + 1 + cs.length = offset + (c :: cs).length := by
      rw [List.length_cons]
      omega
    split at h
    · rename_i hread
      cases h
      exact absurd hend (defect_of_read hread).2
    · exact (ih h).trans hlength
    · exact (ih h).trans hlength

end Mode

/-- Tags are met in the order in which they start, none in front of the span. -/
theorem Span.scan_sorted (s : Span) :
    s.scan.tags.Pairwise (fun t t' => t.offset < t'.offset) ∧
      ∀ t ∈ s.scan.tags, s.start ≤ t.offset := by
  induction hn : s.chars.length using Nat.strong_induction_on generalizing s with
  | h n ih =>
    subst hn
    rw [scan_eq]
    split
    · simp
    · simp
    · rename_i o ho
      split
      · simp
      · rename_i label rest hf
        obtain ⟨inner, -, -, -, hchars, hoffset, hstop⟩ := tag_read ho hf
        obtain ⟨hsorted, hbehind⟩ := ih _ (tag_length_lt ho hf) rest rfl
        have hstart : o.offset < rest.start := by
          simp only [stop, hchars, List.length_append, List.length_cons] at hstop
          omega
        constructor
        · exact List.pairwise_cons.2 ⟨fun t ht => hstart.trans_le (hbehind t ht), hsorted⟩
        · rw [Scan.cons_tags, List.forall_mem_cons]
          exact ⟨by simp [hoffset], fun t ht => by have := hbehind t ht; omega⟩

/-! ### The end of a section -/

/-- How many sections called `name` are to be closed first behind some tags, when it was
`pending` in front of them, or `none` if one of the tags closes the section itself. -/
def pendingBehind (name : String) (pending : Nat) (ts : List Tag) : Option Nat :=
  ts.foldlM (fun pending t => pendingAfter name pending t.sigil t.label) pending

theorem pendingBehind_cons (name : String) (pending : Nat) (t : Tag) (ts : List Tag) :
    pendingBehind name pending (t :: ts) =
      (pendingAfter name pending t.sigil t.label).bind fun pending =>
        pendingBehind name pending ts := List.foldlM_cons

theorem pendingBehind_append (name : String) (pending : Nat) (ts ts' : List Tag) :
    pendingBehind name pending (ts ++ ts') =
      (pendingBehind name pending ts).bind fun pending => pendingBehind name pending ts' :=
  List.foldlM_append

namespace Span

variable {s : Span} {name : String} {pending : Nat}

/-- The search for the end of a section fails at a lexical defect, or where the section is
still open behind all tags of the span. -/
theorem sectionEnd_eq_error {e : SyntaxError} (h : s.sectionEnd name pending = .error e) :
    (∃ tag, s.scan.halt = some ⟨e, tag⟩) ∨
      (e = ⟨.expectedEnd name, s.stop⟩ ∧ s.scan.halt = none ∧
        ∃ left, pendingBehind name pending s.scan.tags = some left) := by
  induction hn : s.chars.length using Nat.strong_induction_on generalizing s pending with
  | h n ih =>
    subst hn
    rw [sectionEnd_eq] at h
    split at h
    · rename_i hnext
      cases h
      exact .inl ⟨none, by rw [scan_eq, hnext]⟩
    · rename_i hnext
      cases h
      rw [scan_eq, hnext]
      exact .inr ⟨rfl, rfl, pending, rfl⟩
    · rename_i o ho
      rw [scan_eq, ho]
      split at h
      · rename_i hf
        cases h
        exact .inl ⟨_, by simp only [hf]; rfl⟩
      · rename_i label rest hf
        obtain ⟨-, -, -, -, -, -, hstop⟩ := tag_read ho hf
        simp only [hf, Scan.cons_halt, Scan.cons_tags, ← hstop]
        split at h
        · cases h
        · rename_i pending' hpending
          rw [pendingBehind_cons, hpending]
          exact ih _ (tag_length_lt ho hf) h rfl

theorem upTo_of_append {rest : Span} {front : List Char} (hchars : s.chars = front ++ rest.chars)
    (hstart : rest.start = s.start + front.length) {n : Nat} (h : rest.start ≤ n) :
    s.upTo n = ⟨s.start, front ++ (rest.upTo n).chars⟩ := by
  have hle : front.length ≤ n - s.start := by omega
  simp only [upTo, hchars, hstart, List.take_append, List.take_of_length_le hle, Nat.sub_add_eq]

/-- A span that is cut off behind its first tag still begins with that tag. -/
theorem scan_upTo {o : Opening} {label : String} {rest : Span}
    (ho : s.nextOpening = .ok (some o)) (hf : o.finish = .ok (label, rest)) {n : Nat}
    (h : rest.start ≤ n) :
    (s.upTo n).scan = (rest.upTo n).scan.cons ⟨o.offset, o.sigil, label⟩ ∧
      (s.upTo n).stop = (rest.upTo n).stop := by
  obtain ⟨inner, hinner, rfl, htext, hchars, hoffset, hstop⟩ := tag_read ho hf
  have hstart : s.start + o.text.length + 2 + o.sigil.chars.length + inner.length + 2 =
      rest.start := by
    simp only [stop, hchars, List.length_append, List.length_cons] at hstop
    omega
  have hcut := @upTo_of_append s rest
    (o.text ++ '{' :: '{' :: (o.sigil.chars ++ inner ++ ['}', '}'])) (by simp [hchars])
    (by simp [← hstart]; omega) n h
  constructor
  · have hscan := scan_tag_append htext hinner s.start (rest.upTo n).chars
    rw [hstart, ← hoffset] at hscan
    rw [hcut, show rest.upTo n = ⟨rest.start, (rest.upTo n).chars⟩ from rfl, ← hscan]
    simp
  · simp only [hcut, stop, List.length_append, List.length_cons, List.length_nil]
    change _ = rest.start + _
    omega

/-- The end of a section that was found is the first tag that closes it: behind the tags of
the body as many sections of its name are closed as open, and the next tag is one more
close tag. -/
theorem sectionEnd_scan {e : SectionEnd} (h : s.sectionEnd name pending = .ok e) :
    (s.upTo e.start).scan.halt = none ∧
      pendingBehind name pending (s.upTo e.start).scan.tags = some 0 ∧
      (s.upTo e.start).stop = e.start ∧
      s.scan.tags =
        (s.upTo e.start).scan.tags ++ ⟨e.start, .close, name⟩ :: e.rest.scan.tags ∧
      s.scan.halt = e.rest.scan.halt ∧ e.rest.stop = s.stop := by
  induction hn : s.chars.length using Nat.strong_induction_on generalizing s pending with
  | h n ih =>
    subst hn
    rw [sectionEnd_eq] at h
    split at h
    · cases h
    · cases h
    · rename_i o ho
      split at h
      · cases h
      · rename_i label rest hf
        obtain ⟨inner, -, -, htext, hchars, hoffset, hstop⟩ := tag_read ho hf
        rw [scan_of_tag ho hf]
        split at h
        · rename_i hpending
          obtain ⟨hsigil, rfl, rfl⟩ := pendingAfter_eq_none_iff.1 hpending
          cases h
          have hbody : s.upTo o.offset = ⟨s.start, o.text⟩ := by
            simp [upTo, hoffset, hchars]
          rw [hbody, scan_text htext, hsigil]
          exact ⟨rfl, rfl, hoffset.symm, rfl, rfl, hstop⟩
        · rename_i pending' hpending
          obtain ⟨hhalt, hopen, hend, htags, hrest, hrestStop⟩ :=
            ih _ (tag_length_lt ho hf) h rfl
          have hle : rest.start ≤ e.start := hend ▸ Nat.le_add_right _ _
          obtain ⟨hcut, hcutStop⟩ := scan_upTo ho hf hle
          rw [hcut, Scan.cons_tags, Scan.cons_tags, pendingBehind_cons, hpending]
          exact ⟨hhalt, hopen, hcutStop.trans hend, by rw [htags]; rfl, hrest,
            hrestStop.trans hstop⟩

end Span

namespace Opening

variable {s : Span} {o : Opening} {sense : Sense}

/-- A section is the tag that opens it, the tags of its body and its close tag, and the
scan goes on with what follows it. -/
theorem enclosed_scan {sec : SectionSpan} (ho : s.nextOpening = .ok (some o))
    (hsigil : o.sigil = .block sense) (h : o.enclosed = .ok sec) :
    s.scan.tags = ⟨o.offset, .block sense, sec.name⟩ ::
        (sec.body.scan.tags ++ ⟨sec.body.stop, .close, sec.name⟩ :: sec.rest.scan.tags) ∧
      s.scan.halt = sec.rest.scan.halt ∧ sec.rest.stop = s.stop ∧ sec.body.scan.halt = none ∧
      pendingBehind sec.name 0 sec.body.scan.tags = some 0 := by
  unfold enclosed at h
  split at h
  · cases h
  · rename_i name behind hf
    obtain ⟨-, -, -, -, -, -, hstop⟩ := Span.tag_read ho hf
    split at h
    · cases h
    · rename_i close hend
      cases h
      obtain ⟨hhalt, hopen, hbody, htags, hrest, hrestStop⟩ := Span.sectionEnd_scan hend
      rw [Span.scan_skipLineEnd] at htags hrest
      rw [Span.skipLineEnd_stop] at hrestStop
      simp only [Span.scan_of_tag ho hf, Span.scan_skipLineEnd, Span.skipLineEnd_stop, hsigil,
        hbody, Scan.cons_tags, Scan.cons_halt, htags]
      exact ⟨trivial, hrest, hrestStop.trans hstop, hhalt, hopen⟩

/-- A section that cannot be read meets a lexical defect, or is still open at the end. -/
theorem enclosed_eq_error {e : SyntaxError} (ho : s.nextOpening = .ok (some o))
    (hsigil : o.sigil = .block sense) (h : o.enclosed = .error e) :
    (∃ tag, s.scan.halt = some ⟨e, tag⟩) ∨
      ∃ name behind left, s.scan = ⟨⟨o.offset, .block sense, name⟩ :: behind, none⟩ ∧
        pendingBehind name 0 behind = some left ∧ e = ⟨.expectedEnd name, s.stop⟩ := by
  unfold enclosed at h
  split at h
  · rename_i hf
    cases h
    left
    rw [Span.scan_eq, ho]
    simp only [hf]
    exact ⟨_, rfl⟩
  · rename_i name behind hf
    obtain ⟨-, -, -, -, -, -, hstop⟩ := Span.tag_read ho hf
    rw [Span.scan_of_tag ho hf, hsigil]
    split at h
    · rename_i hend
      cases h
      obtain hhalt | ⟨rfl, hhalt, left, hopen⟩ := Span.sectionEnd_eq_error hend
      · rw [Span.scan_skipLineEnd] at hhalt
        exact .inl hhalt
      · rw [Span.scan_skipLineEnd] at hhalt hopen
        rw [Span.skipLineEnd_stop, hstop]
        refine .inr ⟨name, behind.scan.tags, left, ?_, hopen, rfl⟩
        rw [← hhalt]
        rfl
    · cases h

end Opening

end Mustache.Template
