import Mustache.Proofs.Template.Piece

/-! Nesting. `Forms room ps nodes` says that the pieces `ps` nest properly, no more
than `room` sections deep, and stand for the nodes `nodes`: each section runs from its
open tag to the close tag of its name that balances it, and keeps the text between
them. The main result is that this is what compiling a span finds out, although it
looks for the end of a section by counting tags of one name and ignores all others. -/

namespace Mustache.Template

/-- The nodes that a tag stands for by itself, none in the case of a comment. The tags of
sections stand for nothing by themselves. -/
def Sigil.alone? : Sigil → String → Option (List Node)
  | .field, name => some [.field name]
  | .inclusion, name => some [.inclusion name]
  | .comment, _ => some []
  | .block _, _ | .close, _ => none

/-- The nodes that a piece stands for by itself. -/
def Piece.alone? : Piece → Option (List Node)
  | .text content => some [.text (String.ofList content)]
  | .tag sigil inner _ => sigil.alone? (sigil.label inner)

theorem Piece.alone?_eq_none {p : Piece} (h : p.alone? = none) :
    (∃ sense inner lineEnd, p = .tag (.block sense) inner lineEnd) ∨
      ∃ inner lineEnd, p = .tag .close inner lineEnd := by
  cases p with
  | text content => simp [Piece.alone?] at h
  | tag sigil inner lineEnd =>
    cases sigil with
    | field | comment | inclusion => simp [Piece.alone?, Sigil.alone?] at h
    | block sense => exact .inl ⟨sense, inner, lineEnd, rfl⟩
    | close => exact .inr ⟨inner, lineEnd, rfl⟩

/-- The pieces nest properly, at most `room` sections deep, and stand for the nodes. -/
inductive Forms : Nat → List Piece → List Node → Prop
  | nil {room : Nat} : Forms room [] []
  | alone {room : Nat} {p : Piece} {ps : List Piece} {front nodes : List Node} :
      p.alone? = some front → Forms room ps nodes → Forms room (p :: ps) (front ++ nodes)
  | block {room : Nat} {sense : Sense} {inner lineEnd inner' lineEnd' : List Char}
      {body ps : List Piece} {children nodes : List Node} :
      Sigil.close.label inner' = (Sigil.block sense).label inner →
      Forms room body children → Forms (room + 1) ps nodes →
      Forms (room + 1)
        (.tag (.block sense) inner lineEnd :: (body ++ .tag .close inner' lineEnd' :: ps))
        (.block sense ((Sigil.block sense).label inner) (String.ofList (written body)) children ::
          nodes)

/-! ### The end of a section -/

/-- How many sections called `name` are to be closed first after a tag, when it was
`pending` in front of it, or `none` if the tag closes the section itself. -/
def pendingAfter (name : String) (pending : Nat) (sigil : Sigil) (label : String) : Option Nat :=
  match sigil with
  | .block _ => some (if label = name then pending + 1 else pending)
  | .close =>
    if label = name then
      match pending with
      | 0 => none
      | pending + 1 => some pending
    else some pending
  | _ => some pending

theorem pendingAfter_eq_none_iff {name label : String} {pending : Nat} {sigil : Sigil} :
    pendingAfter name pending sigil label = none ↔
      sigil = .close ∧ label = name ∧ pending = 0 := by
  cases sigil with
  | close => by_cases hl : label = name <;> cases pending <;> simp [pendingAfter, hl]
  | _ => simp [pendingAfter]

/-- An open tag and a close tag of one name leave as many sections to be closed. -/
theorem exists_pendingAfter (name : String) (pending : Nat) (sense : Sense) (label : String) :
    ∃ inside, pendingAfter name pending (.block sense) label = some inside ∧
      pendingAfter name inside .close label = some pending := by
  by_cases hlabel : label = name <;> simp [pendingAfter, hlabel]

namespace Span

theorem sectionEnd_eq (name : String) (pending : Nat) (s : Span) :
    s.sectionEnd name pending =
      match s.nextOpening with
      | .error e => .error e
      | .ok none => .error ⟨.expectedEnd name, s.stop⟩
      | .ok (some o) =>
        match o.finish with
        | .error e => .error e
        | .ok (label, rest) =>
          match pendingAfter name pending o.sigil label with
          | none => .ok ⟨o.offset, rest⟩
          | some pending => rest.sectionEnd name pending := by
  rw [sectionEnd]
  split
  · rename_i h
    simp only [h]
  · rename_i h
    simp only [h]
  · rename_i o h
    simp only [h]
    split
    · rename_i h
      simp only [h]
    · rename_i label rest h
      simp only [h, pendingAfter]
      cases o.sigil with
      | close => by_cases hl : label = name <;> cases pending <;> simp [hl]
      | _ => rfl

/-- Literal text is read over in search of the end of a section. -/
theorem sectionEnd_append {front : List Char} (h : '{' ∉ front) (name : String)
    (pending start : Nat) (cs : List Char) :
    (⟨start, front ++ cs⟩ : Span).sectionEnd name pending =
      (⟨start + front.length, cs⟩ : Span).sectionEnd name pending := by
  rw [sectionEnd_eq, sectionEnd_eq, nextOpening_append h]
  have hstop : (⟨start, front ++ cs⟩ : Span).stop = (⟨start + front.length, cs⟩ : Span).stop := by
    simp [stop, Nat.add_assoc]
  rw [hstop]
  rcases (⟨start + front.length, cs⟩ : Span).nextOpening with e | _ | o
  · rfl
  · rfl
  · rfl

theorem sectionEnd_tag {sigil : Sigil} {inner : List Char} (h : sigil.Admits inner)
    (name : String) (pending start : Nat) (rest : List Char) :
    (⟨start, '{' :: '{' :: (sigil.chars ++ inner ++ '}' :: '}' :: rest)⟩ : Span).sectionEnd
        name pending =
      let behind : Span := ⟨start + 2 + sigil.chars.length + inner.length + 2, rest⟩
      match pendingAfter name pending sigil (sigil.label inner) with
      | none => .ok ⟨start, behind⟩
      | some pending => behind.sectionEnd name pending := by
  rw [sectionEnd_eq, nextOpening_tag h]
  simp only [Opening.finish_tag h]

theorem sectionEnd_tag_piece {sigil : Sigil} {inner lineEnd rest : List Char} {name : String}
    {pending pending' : Nat} (h : (Piece.tag sigil inner lineEnd).Before rest)
    (hp : pendingAfter name pending sigil (sigil.label inner) = some pending') (start : Nat) :
    (⟨start, (Piece.tag sigil inner lineEnd).written ++ rest⟩ : Span).sectionEnd name pending =
      (⟨start + (Piece.tag sigil inner lineEnd).written.length, rest⟩ : Span).sectionEnd
        name pending' := by
  simp only [Piece.written, List.cons_append, List.append_assoc]
  rw [← List.append_assoc, sectionEnd_tag h.1, hp]
  simp only
  rw [sectionEnd_append h.brace_not_mem_lineEnd]
  congr 2
  simp only [List.length_cons, List.length_append]
  omega

/-- A piece that stands for itself changes nothing in the search. -/
theorem sectionEnd_alone {p : Piece} {front : List Node} {rest : List Char}
    (h : p.alone? = some front) (hp : p.Before rest) (name : String) (pending start : Nat) :
    (⟨start, p.written ++ rest⟩ : Span).sectionEnd name pending =
      (⟨start + p.written.length, rest⟩ : Span).sectionEnd name pending := by
  cases p with
  | text content => exact sectionEnd_append hp.2.1 name pending start rest
  | tag sigil inner lineEnd =>
    apply sectionEnd_tag_piece hp
    cases sigil with
    | block | close => simp [Piece.alone?, Sigil.alone?] at h
    | field | comment | inclusion => rfl

end Span

/-- Properly nested pieces are read over in search of the end of a section: of the tags
of its name among them, as many close a section as open one. -/
theorem Forms.sectionEnd {room : Nat} {ps : List Piece} {nodes : List Node}
    (h : Forms room ps nodes) (name : String) (pending start : Nat) {rest : List Piece}
    (hcut : WellCut (ps ++ rest)) :
    (⟨start, written ps ++ written rest⟩ : Span).sectionEnd name pending =
      (⟨start + (written ps).length, written rest⟩ : Span).sectionEnd name pending := by
  induction h generalizing pending start rest with
  | nil => rfl
  | @alone room p ps front nodes hp _ ih =>
    rw [List.cons_append, wellCut_cons, written_append] at hcut
    rw [written_cons, List.append_assoc, Span.sectionEnd_alone hp hcut.1, ih _ _ hcut.2,
      List.length_append, Nat.add_assoc]
  | @block room sense inner lineEnd inner' lineEnd' body ps children nodes
      hname _ _ ihbody ihrest =>
    simp only [List.cons_append, List.append_assoc] at hcut
    obtain ⟨hopen, hcut⟩ := hcut
    have hback := ((wellCut_append_tag ..).1 hcut).2
    obtain ⟨hclose, hrest⟩ := hback
    -- the open tag asks for one more close tag of its name, and its own close tag is it
    obtain ⟨inside, hinside, hbehind⟩ :=
      exists_pendingAfter name pending sense ((Sigil.block sense).label inner)
    rw [← hname] at hbehind
    have hsplit : written (.tag (.block sense) inner lineEnd ::
        (body ++ .tag .close inner' lineEnd' :: ps)) ++ written rest =
          (Piece.tag (.block sense) inner lineEnd).written ++
            written (body ++ .tag .close inner' lineEnd' :: (ps ++ rest)) := by
      simp
    rw [hsplit, Span.sectionEnd_tag_piece hopen hinside, written_append, ihbody _ _ hcut,
      written_cons, Span.sectionEnd_tag_piece hclose hbehind, written_append, ihrest _ _ hrest]
    congr 2
    simp only [written_cons, written_append, List.length_append]
    omega

/-! ### Compiling -/

theorem buildOnto_eq (limit depth : Nat) (done : List Node) (s : Span) :
    buildOnto limit depth done s =
      match s.nextOpening with
      | .error e => .error e
      | .ok none => .ok (Node.consText s.chars done).reverse
      | .ok (some o) =>
        match o.sigil with
        | .close => .error ⟨.strayEnd, o.offset⟩
        | .block sense =>
          if limit ≤ depth then .error ⟨.nestingTooDeep limit, o.offset⟩ else
          match o.enclosed with
          | .error e => .error e
          | .ok sec =>
            match buildOnto limit (depth + 1) [] sec.body with
            | .error e => .error e
            | .ok children =>
              buildOnto limit depth
                (.block sense sec.name sec.body.text children :: Node.consText o.text done) sec.rest
        | sigil =>
          match o.finish with
          | .error e => .error e
          | .ok (label, behind) =>
            buildOnto limit depth
              (((sigil.alone? label).getD []).reverse ++ Node.consText o.text done)
              (behind.behindTag sigil) := by
  rw [buildOnto]
  split
  · rename_i h
    simp only [h]
  · rename_i h
    simp only [h]
  · rename_i o h
    simp only [h]
    cases o.sigil with
    | close => rfl
    | block sense =>
      simp only
      split
      · rfl
      · split
        · rename_i h
          rw [h]
        · rename_i sec h
          cases hbody : buildOnto limit (depth + 1) [] sec.body <;> simp only [h, hbody]
    | field | inclusion | comment =>
      simp only
      split
      · rename_i h
        simp only [h]
      · rename_i h
        simp only [h]
        rfl

theorem Span.nextOpening_at_brace {start : Nat} {back : List Char} {o? : Option Opening}
    (h : (⟨start, '{' :: back⟩ : Span).nextOpening = .ok o?) : ∃ o, o? = some o ∧ o.text = [] := by
  rcases back with _ | ⟨b, _ | ⟨c, rest⟩⟩
  · simp [nextOpening] at h
  · by_cases hb : b = '{' <;> simp [nextOpening, hb] at h
  · by_cases hb : b = '{'
    · subst hb
      rw [nextOpening_braces, Except.ok.injEq] at h
      refine ⟨_, h.symm, ?_⟩
      split <;> rfl
    · simp [nextOpening, hb] at h

theorem Span.not_mem_of_nextOpening {s : Span} (h : s.nextOpening = .ok none) :
    '{' ∉ s.chars := by
  obtain ⟨start, cs⟩ := s
  intro hmem
  obtain ⟨front, back, rfl, hfront⟩ := List.eq_append_cons_of_mem hmem
  rw [nextOpening_append hfront, map_eq_ok_iff] at h
  obtain ⟨o?, hnext, hmap⟩ := h
  obtain ⟨o, rfl, -⟩ := nextOpening_at_brace hnext
  simp at hmap

/-- Literal text up to the next tag becomes a node of its own. -/
theorem buildOnto_text {content rest : List Char} (h : (Piece.text content).Before rest)
    (limit depth start : Nat) (done : List Node) :
    buildOnto limit depth done ⟨start, content ++ rest⟩ =
      buildOnto limit depth (.text (String.ofList content) :: done)
        ⟨start + content.length, rest⟩ := by
  obtain ⟨hne, hbrace, hrest⟩ := h
  have hcons : Node.consText content done = .text (String.ofList content) :: done := by
    simp [Node.consText, hne]
  have hempty : ∀ nodes, Node.consText [] nodes = nodes := fun _ => rfl
  rw [buildOnto_eq, buildOnto_eq limit depth (.text _ :: done), Span.nextOpening_append hbrace]
  cases rest with
  | nil =>
    have hnext : (⟨start + content.length, []⟩ : Span).nextOpening = .ok none := rfl
    simp only [hnext, Except.map, Option.map_none, List.append_nil, hcons, hempty]
  | cons c back =>
    obtain rfl := hrest c rfl
    cases hnext : (⟨start + content.length, '{' :: back⟩ : Span).nextOpening with
    | error e => rfl
    | ok o? =>
      obtain ⟨o, rfl, htext⟩ := Span.nextOpening_at_brace hnext
      simp only [Except.map, Option.map_some, htext, List.append_nil, hcons, hempty]
      rfl

/-- A piece that stands for itself becomes the nodes that it stands for. -/
theorem buildOnto_alone {p : Piece} {front : List Node} {rest : List Char}
    (h : p.alone? = some front) (hp : p.Before rest) (limit depth start : Nat)
    (done : List Node) :
    buildOnto limit depth done ⟨start, p.written ++ rest⟩ =
      buildOnto limit depth (front.reverse ++ done) ⟨start + p.written.length, rest⟩ := by
  cases p with
  | text content =>
    obtain rfl := Option.some.inj h
    exact buildOnto_text hp limit depth start done
  | tag sigil inner lineEnd =>
    have hlength : start + 2 + sigil.chars.length + inner.length + 2 + lineEnd.length =
        start + (Piece.tag sigil inner lineEnd).written.length := by
      simp only [Piece.written, List.length_cons, List.length_append]
      omega
    have hwritten : (Piece.tag sigil inner lineEnd).written ++ rest =
        '{' :: '{' :: (sigil.chars ++ inner ++ '}' :: '}' :: (lineEnd ++ rest)) := by
      simp [Piece.written]
    rw [← hlength, hwritten, buildOnto_eq, Span.nextOpening_tag hp.1]
    simp only [Opening.finish_tag hp.1]
    cases sigil with
    | block | close => simp [Piece.alone?, Sigil.alone?] at h
    | field | inclusion | comment =>
      obtain rfl := Option.some.inj h
      simp only [hp.behindTag]
      rfl

/-- The section that an opening begins: its name, its body, and what follows it. -/
theorem Opening.enclosed_block {room : Nat} {sense : Sense}
    {inner lineEnd inner' lineEnd' : List Char} {body ps : List Piece} {children : List Node}
    (hname : Sigil.close.label inner' = (Sigil.block sense).label inner)
    (hbody : Forms room body children)
    (hopen : (Piece.tag (.block sense) inner lineEnd).Before
      (written (body ++ .tag .close inner' lineEnd' :: ps)))
    (hcut : WellCut (body ++ .tag .close inner' lineEnd' :: ps))
    (text : List Char) (offset start : Nat) :
    ∃ bodyStart restStart, (⟨text, offset, .block sense,
        ⟨start, inner ++ '}' :: '}' :: (lineEnd ++
          written (body ++ .tag .close inner' lineEnd' :: ps))⟩⟩ : Opening).enclosed =
      .ok ⟨(Sigil.block sense).label inner, ⟨bodyStart, written body⟩,
        ⟨restStart, written ps⟩⟩ := by
  obtain ⟨hclose, -⟩ := ((wellCut_append_tag ..).1 hcut).2
  have hwritten : written (.tag .close inner' lineEnd' :: ps) =
      '{' :: '{' :: (Sigil.close.chars ++ inner' ++ '}' :: '}' :: (lineEnd' ++ written ps)) := by
    simp [Piece.written]
  have hpending : pendingAfter ((Sigil.block sense).label inner) 0 .close
      (Sigil.close.label inner') = none := by
    simp [pendingAfter, hname]
  refine ⟨start + inner.length + 2 + lineEnd.length,
    start + inner.length + 2 + lineEnd.length + (written body).length + 2 +
      Sigil.close.chars.length + inner'.length + 2 + lineEnd'.length, ?_⟩
  have hbehindOpen := hopen.behindTag (start + inner.length + 2)
  have hbehindClose := hclose.behindTag
  simp only [Span.behindTag, Sigil.takesLineEnd, if_true] at hbehindOpen hbehindClose
  unfold Opening.enclosed
  rw [Opening.finish_tag hopen.1]
  simp only [hbehindOpen]
  rw [written_append, hbody.sectionEnd _ _ _ hcut, hwritten, Span.sectionEnd_tag hclose.1,
    hpending]
  simp only [hbehindClose, Span.upTo, Nat.add_sub_cancel_left, List.take_left]

/-- Pieces that nest properly compile to the nodes that they stand for. -/
theorem Forms.buildOnto {room : Nat} {ps : List Piece} {nodes : List Node}
    (h : Forms room ps nodes) {limit depth : Nat} (hroom : limit - depth = room)
    (hcut : WellCut ps) (start : Nat) (done : List Node) :
    buildOnto limit depth done ⟨start, written ps⟩ = .ok (done.reverse ++ nodes) := by
  induction h generalizing depth start done with
  | nil =>
    rw [buildOnto_eq, Span.nextOpening_of_not_mem (by simp)]
    simp [Node.consText]
  | @alone room p ps front nodes hp _ ih =>
    rw [written_cons, buildOnto_alone hp hcut.1, ih hroom hcut.2]
    simp
  | @block room sense inner lineEnd inner' lineEnd' body ps children nodes
      hname hbody _ ihbody ihrest =>
    obtain ⟨hopen, hcut⟩ := hcut
    obtain ⟨hinside, -, hbehind⟩ := (wellCut_append_tag ..).1 hcut
    have hdepth : ¬ limit ≤ depth := by omega
    have hwritten : written (.tag (.block sense) inner lineEnd ::
        (body ++ .tag .close inner' lineEnd' :: ps)) =
          '{' :: '{' :: ((Sigil.block sense).chars ++ inner ++ '}' :: '}' ::
            (lineEnd ++ written (body ++ .tag .close inner' lineEnd' :: ps))) := by
      simp [Piece.written]
    rw [hwritten, buildOnto_eq, Span.nextOpening_tag hopen.1]
    obtain ⟨bodyStart, restStart, henclosed⟩ := Opening.enclosed_block hname hbody hopen hcut []
      start (start + 2 + (Sigil.block sense).chars.length)
    have hchildren := @ihbody (depth + 1) (by omega) hinside bodyStart []
    simp only [hdepth, if_false, henclosed, hchildren, ihrest hroom hbehind]
    simp [Node.consText, Span.text]

/-! ### What compiles nests properly -/

/-- The close tag that was found bears the name, and the body lies in front of it. -/
theorem Span.sectionEnd_eq_ok {name : String} {pending : Nat} {s : Span} {e : SectionEnd}
    (h : s.sectionEnd name pending = .ok e) :
    ∃ body inner, Sigil.close.Admits inner ∧ Sigil.close.label inner = name ∧
      s.chars = body ++ '{' :: '{' :: (Sigil.close.chars ++ inner ++ '}' :: '}' :: e.rest.chars) ∧
      e.start = s.start + body.length := by
  induction hn : s.chars.length using Nat.strong_induction_on generalizing s pending with
  | h n ih =>
    rw [sectionEnd_eq] at h
    split at h
    · simp at h
    · simp at h
    · rename_i o ho
      split at h
      · simp at h
      · rename_i label rest hf
        obtain ⟨inner, hinner, hlabel, -, hchars, hoffset, hstop⟩ := tag_read ho hf
        split at h
        · rename_i hpending
          obtain ⟨hclose, hname, -⟩ := pendingAfter_eq_none_iff.1 hpending
          simp only [Except.ok.injEq] at h
          subst h
          rw [hclose] at hinner hlabel hchars
          exact ⟨o.text, inner, hinner, hlabel.symm.trans hname, hchars, hoffset⟩
        · rename_i pending' hpending
          obtain ⟨body, inner', hinner', hname, hrest, hstart⟩ :=
            ih _ (hn ▸ tag_length_lt ho hf) h rfl
          refine ⟨o.text ++ '{' :: '{' :: (o.sigil.chars ++ inner ++ '}' :: '}' :: body), inner',
            hinner', hname, ?_, ?_⟩
          · rw [hchars, hrest]
            simp
          · simp only [stop, hchars, List.length_append, List.length_cons] at hstop ⊢
            omega

/-- A section that was read is an open tag, a body, a close tag of the same name and the
rest, each tag with the line end that belongs to it. -/
theorem Opening.enclosed_eq_ok {s : Span} {o : Opening} {sense : Sense} {sec : SectionSpan}
    (ho : s.nextOpening = .ok (some o)) (hsigil : o.sigil = .block sense)
    (h : o.enclosed = .ok sec) :
    ∃ inner lineEnd inner' lineEnd',
      s.chars = o.text ++ ((Piece.tag (.block sense) inner lineEnd).written ++
        (sec.body.chars ++ ((Piece.tag .close inner' lineEnd').written ++ sec.rest.chars))) ∧
      (Piece.tag (.block sense) inner lineEnd).Before sec.body.chars ∧
      (Piece.tag .close inner' lineEnd').Before sec.rest.chars ∧
      sec.name = (Sigil.block sense).label inner ∧ Sigil.close.label inner' = sec.name := by
  unfold Opening.enclosed at h
  split at h
  · simp at h
  · rename_i name behind hf
    obtain ⟨inner, hinner, hlabel, -, hchars, -, -⟩ := Span.tag_read ho hf
    rw [hsigil] at hinner hlabel hchars
    split at h
    · simp at h
    · rename_i close hend
      obtain ⟨body, inner', hinner', hname, hbody, hstart⟩ := Span.sectionEnd_eq_ok hend
      obtain ⟨lineEnd, hopen, hbehind⟩ := Piece.before_tag_behindTag hinner behind
      obtain ⟨lineEnd', hclose, hrest⟩ := Piece.before_tag_behindTag hinner' close.rest
      simp only [Except.ok.injEq] at h
      subst h
      have htake : (behind.skipLineEnd.upTo close.start).chars = body := by
        simp [Span.upTo, hstart, hbody]
      change (Piece.tag _ inner lineEnd).Before behind.skipLineEnd.chars at hopen
      change behind.chars = lineEnd ++ behind.skipLineEnd.chars at hbehind
      change close.rest.chars = lineEnd' ++ close.rest.skipLineEnd.chars at hrest
      rw [hbody, Piece.before_append_brace] at hopen
      refine ⟨inner, lineEnd, inner', lineEnd', ?_, ?_, hclose, hlabel, hname⟩
      · rw [hchars, hbehind, htake, hbody, hrest]
        simp [Piece.written]
      · rwa [htake]

/-- Literal text in front of pieces that begin with a tag is a piece of its own. -/
theorem Forms.consText {room : Nat} {text : List Char} {ps : List Piece} {nodes : List Node}
    (h : Forms room ps nodes) (htext : '{' ∉ text) (hcut : WellCut ps)
    (hhead : ∀ c ∈ (written ps).head?, c = '{') :
    ∃ ps' nodes', Forms room ps' nodes' ∧ WellCut ps' ∧ written ps' = text ++ written ps ∧
      ∀ done, (Node.consText text done).reverse ++ nodes = done.reverse ++ nodes' := by
  by_cases hempty : text = []
  · subst hempty
    exact ⟨ps, nodes, h, hcut, rfl, fun _ => rfl⟩
  · refine ⟨.text text :: ps, [.text (String.ofList text)] ++ nodes, .alone rfl h,
      ⟨⟨hempty, htext, hhead⟩, hcut⟩, rfl, fun done => ?_⟩
    simp [Node.consText, hempty]

/-- A tag that stands for itself, with the text in front of it and the pieces behind. -/
theorem Forms.consTag {room : Nat} {s behind : Span} {o : Opening} {label : String}
    {ps : List Piece} {front nodes : List Node} (ho : s.nextOpening = .ok (some o))
    (hf : o.finish = .ok (label, behind)) (hfront : o.sigil.alone? label = some front)
    (h : Forms room ps nodes) (hcut : WellCut ps)
    (hwritten : written ps = (behind.behindTag o.sigil).chars) :
    ∃ ps' nodes', Forms room ps' nodes' ∧ WellCut ps' ∧ written ps' = s.chars ∧
      ∀ done, (front.reverse ++ Node.consText o.text done).reverse ++ nodes =
        done.reverse ++ nodes' := by
  obtain ⟨inner, hinner, rfl, htext, hchars, -, -⟩ := Span.tag_read ho hf
  obtain ⟨lineEnd, hbefore, hbehind⟩ := Piece.before_tag_behindTag hinner behind
  rw [← hwritten] at hbefore hbehind
  have htag : Forms room (.tag o.sigil inner lineEnd :: ps) (front ++ nodes) := .alone hfront h
  obtain ⟨ps', nodes', hps', hcut', hwritten', hnodes⟩ :=
    htag.consText htext ⟨hbefore, hcut⟩ (by simp [Piece.written])
  refine ⟨ps', nodes', hps', hcut', ?_, fun done => ?_⟩
  · rw [hwritten', hchars, hbehind]
    simp [Piece.written]
  · rw [← hnodes]
    simp

/-- A section whose body nests properly, with the text in front of it and the pieces
behind. -/
theorem Forms.consBlock {room : Nat} {s : Span} {o : Opening} {sense : Sense} {sec : SectionSpan}
    {body ps : List Piece} {children nodes : List Node} (ho : s.nextOpening = .ok (some o))
    (hsigil : o.sigil = .block sense) (hsec : o.enclosed = .ok sec)
    (hbody : Forms room body children) (hcutBody : WellCut body)
    (hwrittenBody : written body = sec.body.chars) (h : Forms (room + 1) ps nodes)
    (hcut : WellCut ps) (hwritten : written ps = sec.rest.chars) :
    ∃ ps' nodes', Forms (room + 1) ps' nodes' ∧ WellCut ps' ∧ written ps' = s.chars ∧
      ∀ done, (.block sense sec.name sec.body.text children ::
        Node.consText o.text done).reverse ++ nodes = done.reverse ++ nodes' := by
  obtain ⟨htext, -⟩ := Span.nextOpening_eq_some ho
  obtain ⟨inner, lineEnd, inner', lineEnd', hchars, hopen, hclose, hname, hname'⟩ :=
    Opening.enclosed_eq_ok ho hsigil hsec
  rw [← hwrittenBody] at hopen hchars
  rw [← hwritten] at hclose hchars
  have hblock : Forms (room + 1)
      (.tag (.block sense) inner lineEnd :: (body ++ .tag .close inner' lineEnd' :: ps))
      (.block sense ((Sigil.block sense).label inner) (String.ofList (written body)) children ::
        nodes) := .block (hname'.trans hname) hbody h
  have hcutBlock : WellCut
      (.tag (.block sense) inner lineEnd :: (body ++ .tag .close inner' lineEnd' :: ps)) := by
    refine ⟨?_, (wellCut_append_tag ..).2 ⟨hcutBody, hclose, hcut⟩⟩
    rw [written_append, written_cons, Piece.written, List.cons_append]
    exact (Piece.before_append_brace ..).2 hopen
  obtain ⟨ps', nodes', hps', hcut', hwritten', hnodes⟩ :=
    hblock.consText htext hcutBlock (by simp [Piece.written])
  refine ⟨ps', nodes', hps', hcut', ?_, fun done => ?_⟩
  · rw [hwritten', hchars]
    simp
  · rw [← hnodes, hname, Span.text, ← hwrittenBody]
    simp

/-- What compiles is made of pieces that nest properly and stand for the nodes. -/
theorem exists_forms_of_buildOnto {limit depth : Nat} {done out : List Node} {s : Span}
    (h : buildOnto limit depth done s = .ok out) :
    ∃ ps nodes, Forms (limit - depth) ps nodes ∧ WellCut ps ∧ written ps = s.chars ∧
      out = done.reverse ++ nodes := by
  induction hn : s.chars.length using Nat.strong_induction_on generalizing s depth done out with
  | h n ih =>
    subst hn
    rw [buildOnto_eq] at h
    split at h
    · simp at h
    · rename_i hnext
      obtain ⟨ps, nodes, hps, hcut, hwritten, hnodes⟩ :=
        (Forms.nil : Forms (limit - depth) [] []).consText (Span.not_mem_of_nextOpening hnext)
          trivial (by simp)
      rw [written_nil, List.append_nil] at hwritten
      refine ⟨ps, nodes, hps, hcut, hwritten, ?_⟩
      rw [← hnodes, List.append_nil, ← Except.ok.inj h]
    · rename_i o ho
      cases hsigil : o.sigil with
      | close => simp [hsigil] at h
      | block sense =>
        simp only [hsigil] at h
        split at h
        · simp at h
        · rename_i hdepth
          split at h
          · simp at h
          · rename_i sec hsec
            split at h
            · simp at h
            · rename_i children hchildren
              obtain ⟨hltBody, hltRest⟩ := Opening.enclosed_length_lt ho hsec
              obtain ⟨body, _, hbody, hcutBody, hwrittenBody, rfl⟩ := ih _ hltBody hchildren rfl
              obtain ⟨ps, nodes, hps, hcut, hwritten, hout⟩ := ih _ hltRest h rfl
              rw [show limit - depth = limit - (depth + 1) + 1 by omega] at hps ⊢
              obtain ⟨ps', nodes', hps', hcut', hwritten', hnodes⟩ :=
                hbody.consBlock ho hsigil hsec hcutBody hwrittenBody hps hcut hwritten
              exact ⟨ps', nodes', hps', hcut', hwritten', hout.trans (hnodes done)⟩
      | field | inclusion | comment =>
        simp only [hsigil] at h
        split at h
        · simp at h
        · rename_i label behind hf
          have hlt := Span.tag_length_lt ho hf
          have hle := behind.behindTag_length_le o.sigil
          rw [hsigil] at hle
          obtain ⟨ps, nodes, hps, hcut, hwritten, hout⟩ := ih _ (by omega) h rfl
          rw [← hsigil] at hwritten
          obtain ⟨ps', nodes', hps', hcut', hwritten', hnodes⟩ :=
            hps.consTag ho hf (by rw [hsigil]; rfl) hcut hwritten
          exact ⟨ps', nodes', hps', hcut', hwritten', hout.trans (hnodes done)⟩

/-- A source compiles to nodes just if it is cut into pieces that nest properly and stand
for these nodes. -/
theorem parse_eq_ok_iff_forms {limit : Nat} {source : List Char} {nodes : List Node} :
    parse limit source = .ok nodes ↔
      ∃ ps, WellCut ps ∧ written ps = source ∧ Forms limit ps nodes := by
  constructor
  · intro h
    obtain ⟨ps, nodes', hps, hcut, hwritten, rfl⟩ := exists_forms_of_buildOnto h
    exact ⟨ps, hcut, hwritten, hps⟩
  · rintro ⟨ps, hcut, rfl, hps⟩
    exact hps.buildOnto rfl hcut 0 []

end Mustache.Template
