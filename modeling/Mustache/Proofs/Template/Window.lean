import Mustache.Proofs.Template.Transcription

/-! Reading a source in place. A window is a source and the offset at which reading has to
stop. Its reader moves a cursor through the source, by offsets of the whole source, and asks
for a character only in front of the end. Main result: a stretch of a source is compiled in
place just as its characters are by themselves. What stands around it is not looked at, even
where a tag, a pair of close braces or a line end goes on behind the end. -/

namespace Mustache.Template

/-- A source and the offset at which reading has to stop. -/
structure Window where
  source : List Char
  stop : Nat
  stop_le : stop ≤ source.length

namespace Window

/-- The window that ends at an offset, if it has not ended by then. -/
def upTo (w : Window) (n : Nat) : Window :=
  ⟨w.source, min n w.stop, (Nat.min_le_right _ _).trans w.stop_le⟩

/-- The character at an offset in front of the end. -/
def char? (w : Window) (i : Nat) : Option Char :=
  if i < w.stop then w.source[i]? else none

/-- The characters from offset `i` up to offset `j`. -/
def slice (w : Window) (i j : Nat) : List Char := (w.source.take j).drop i

/-- The first offset from `i` on, in front of the end, that `p` accepts. -/
def find (w : Window) (p : Nat → Bool) (i : Nat) : Option Nat :=
  if i < w.stop then if p i then some i else w.find p (i + 1) else none
termination_by w.stop - i

/-- The first offset from `i` on at which a character stands that `q` accepts. -/
def findChar (w : Window) (q : Char → Bool) (i : Nat) : Option Nat :=
  w.find (fun j => (w.char? j).any q) i

/-! ### The reader -/

/-- The offset behind one line end, `\n` or `\r\n`, if there is one at offset `i`. -/
def skipLineEnd (w : Window) (i : Nat) : Nat :=
  if w.char? i = some '\r' ∧ w.char? (i + 1) = some '\n' then i + 2
  else if w.char? i = some '\n' then i + 1
  else i

/-- The offset behind a tag of some kind that ends at offset `i`. -/
def behindTag (w : Window) (sigil : Sigil) (i : Nat) : Nat :=
  if sigil.takesLineEnd then w.skipLineEnd i else i

/-- The offset behind the close braces that have to stand at offset `i`. -/
def closeBraces (w : Window) : Nat → Nat → Except SyntaxError Nat
  | 0, i => .ok i
  | n + 1, i =>
    if w.char? i = some '}' then w.closeBraces n (i + 1) else .error ⟨.expectedClose, i⟩

/-- The identifier at offset `i` and the offset behind the close braces that follow it. -/
def scanTag (w : Window) (closing i : Nat) : Except SyntaxError (String × Nat) :=
  match w.findChar (fun c => c == '}' || c == '\n') i with
  | none => .error ⟨.expectedClose, w.stop⟩
  | some j =>
    if w.char? j = some '\n' then .error ⟨.lineFeedInTag, j⟩
    else (w.closeBraces closing j).map fun next =>
      (String.ofList (trimSpaces (w.slice i j)), next)

/-- The offset behind the first pair of close braces from `i` on. -/
def skipComment (w : Window) (i : Nat) : Except SyntaxError Nat :=
  match w.find (fun j => w.char? j = some '}' ∧ w.char? (j + 1) = some '}') i with
  | none => .error ⟨.expectedClose, w.stop⟩
  | some j => .ok (j + 2)

/-- A pair of open braces in place: its offset, its sigil, and the offset behind the sigil. -/
structure Mark where
  offset : Nat
  sigil : Sigil
  rest : Nat

/-- The first pair of open braces from offset `i` on. -/
def nextOpening (w : Window) (i : Nat) : Except SyntaxError (Option Mark) :=
  match w.findChar (· == '{') i with
  | none => .ok none
  | some j =>
    if w.char? (j + 1) = some '{' then
      match w.char? (j + 2) with
      | none => .error ⟨.endOfSource, w.stop⟩
      | some c =>
        match Sigil.ofChar? c with
        | some sigil => .ok (some ⟨j, sigil, j + 3⟩)
        | none => .ok (some ⟨j, .field, j + 2⟩)
    else .error ⟨.expectedOpen, j⟩

/-- The identifier of a tag and the offset behind it. -/
def finish (w : Window) (m : Mark) : Except SyntaxError (String × Nat) :=
  match m.sigil with
  | .comment => (w.skipComment m.rest).map fun next => ("", next)
  | _ => w.scanTag 2 m.rest

/-! ### The cursor stays in front of the end -/

variable {w : Window} {i j next : Nat}

theorem find_eq_some {p : Nat → Bool} (h : w.find p i = some j) :
    i ≤ j ∧ j < w.stop ∧ p j = true := by
  fun_induction find w p i with
  | case1 i hlt hp =>
    cases h
    exact ⟨le_rfl, hlt, hp⟩
  | case2 i hlt hp ih =>
    obtain ⟨hle, hrest⟩ := ih h
    exact ⟨Nat.le_of_succ_le hle, hrest⟩
  | case3 => cases h

theorem find_add {p : Nat → Bool} {n : Nat} (hn : i + n ≤ w.stop)
    (hskip : ∀ k < n, p (i + k) = false) : w.find p i = w.find p (i + n) := by
  induction n with
  | zero => rfl
  | succ n ih =>
    have hlast : p (i + n) = false := hskip n (Nat.lt_succ_self n)
    rw [ih (by omega) fun k hk => hskip k (Nat.lt_succ_of_lt hk), find, if_pos (by omega), hlast]
    rfl

theorem lt_stop_of_char? {c : Char} (h : w.char? i = some c) : i < w.stop := by
  unfold char? at h
  split at h
  · assumption
  · cases h

theorem skipLineEnd_bounds (h : i ≤ w.stop) : i ≤ w.skipLineEnd i ∧ w.skipLineEnd i ≤ w.stop := by
  unfold skipLineEnd
  split
  · rename_i hpair
    have hlt := lt_stop_of_char? hpair.2
    omega
  · split
    · rename_i hfeed
      have hlt := lt_stop_of_char? hfeed
      omega
    · exact ⟨le_rfl, h⟩

theorem behindTag_bounds (h : i ≤ w.stop) (sigil : Sigil) :
    i ≤ w.behindTag sigil i ∧ w.behindTag sigil i ≤ w.stop := by
  unfold behindTag
  split
  · exact skipLineEnd_bounds h
  · exact ⟨le_rfl, h⟩

theorem closeBraces_bounds {closing : Nat} (h : w.closeBraces closing i = .ok next)
    (hi : i ≤ w.stop) : next = i + closing ∧ next ≤ w.stop := by
  induction closing generalizing i with
  | zero =>
    cases h
    exact ⟨rfl, hi⟩
  | succ closing ih =>
    rw [closeBraces] at h
    split at h
    · rename_i hbrace
      obtain ⟨hnext, hle⟩ := ih h (lt_stop_of_char? hbrace)
      omega
    · cases h

theorem scanTag_bounds {closing : Nat} {label : String}
    (h : w.scanTag closing i = .ok (label, next)) : i ≤ next ∧ next ≤ w.stop := by
  unfold scanTag at h
  split at h
  · cases h
  · rename_i j hfind
    obtain ⟨hle, hlt, -⟩ := find_eq_some hfind
    split at h
    · cases h
    · obtain ⟨next', hclose, hpair⟩ := map_eq_ok_iff.1 h
      cases hpair
      obtain ⟨hnext, hstop⟩ := closeBraces_bounds hclose hlt.le
      omega

theorem skipComment_bounds (h : w.skipComment i = .ok next) : i ≤ next ∧ next ≤ w.stop := by
  unfold skipComment at h
  split at h
  · cases h
  · rename_i j hfind
    obtain ⟨hle, -, hpair⟩ := find_eq_some hfind
    have hlt := lt_stop_of_char? (of_decide_eq_true hpair).2
    cases h
    omega

theorem nextOpening_bounds {m : Mark} (h : w.nextOpening i = .ok (some m)) :
    i ≤ m.offset ∧ m.offset < m.rest ∧ m.rest ≤ w.stop := by
  unfold nextOpening at h
  split at h
  · cases h
  · rename_i j hfind
    obtain ⟨hle, -, -⟩ := find_eq_some hfind
    split at h
    · split at h
      · cases h
      · rename_i c hc
        have hlt := lt_stop_of_char? hc
        split at h <;> cases h <;> simp only <;> omega
    · cases h

theorem finish_bounds {m : Mark} {label : String} (h : w.finish m = .ok (label, next)) :
    m.rest ≤ next ∧ next ≤ w.stop := by
  unfold finish at h
  split at h
  · obtain ⟨next', hskip, hpair⟩ := map_eq_ok_iff.1 h
    cases hpair
    exact skipComment_bounds hskip
  · exact scanTag_bounds h

/-- Reading a tag moves the cursor on, and not behind the end. -/
theorem tag_bounds {m : Mark} {label : String} (hm : w.nextOpening i = .ok (some m))
    (hf : w.finish m = .ok (label, next)) :
    i ≤ m.offset ∧ m.offset < next ∧ next ≤ w.stop := by
  have hopening := nextOpening_bounds hm
  have hfinish := finish_bounds hf
  omega

/-- The close tag that leaves none of `pending + 1` sections called `name` open: its offset
and the offset behind it. -/
def sectionEnd (w : Window) (name : String) (pending i : Nat) :
    Except SyntaxError (Nat × Nat) :=
  match hm : w.nextOpening i with
  | .error e => .error e
  | .ok none => .error ⟨.expectedEnd name, w.stop⟩
  | .ok (some m) =>
    match hf : w.finish m with
    | .error e => .error e
    | .ok (label, next) =>
      have := w.tag_bounds hm hf
      match pendingAfter name pending m.sigil label with
      | none => .ok (m.offset, next)
      | some pending => w.sectionEnd name pending next
termination_by w.stop - i

theorem sectionEnd_bounds {name : String} {pending : Nat}
    (h : w.sectionEnd name pending i = .ok (j, next)) :
    i ≤ j ∧ j < next ∧ next ≤ w.stop := by
  fun_induction sectionEnd w name pending i with
  | case1 | case2 | case3 => cases h
  | case4 pending i m hm label next' hf hbounds hpending =>
    cases h
    exact hbounds
  | case5 pending i m hm label next' hf hbounds pending' hpending ih =>
    have hrest := ih h
    omega

/-- A section in place: its name, where its body starts and ends, and the offset behind it. -/
structure Enclosed where
  name : String
  body : Nat
  close : Nat
  rest : Nat

/-- The section that a tag opens. -/
def enclosed (w : Window) (m : Mark) : Except SyntaxError Enclosed :=
  match w.finish m with
  | .error e => .error e
  | .ok (name, next) =>
    match w.sectionEnd name 0 (w.skipLineEnd next) with
    | .error e => .error e
    | .ok (close, behind) => .ok ⟨name, w.skipLineEnd next, close, w.skipLineEnd behind⟩

theorem enclosed_bounds {m : Mark} {sec : Enclosed} (hm : w.nextOpening i = .ok (some m))
    (h : w.enclosed m = .ok sec) :
    i < sec.body ∧ sec.body ≤ sec.close ∧ sec.close < sec.rest ∧ sec.rest ≤ w.stop := by
  unfold enclosed at h
  split at h
  · cases h
  · rename_i name next hf
    have htag := tag_bounds hm hf
    split at h
    · cases h
    · rename_i close behind hend
      cases h
      have hbody := skipLineEnd_bounds htag.2.2
      have hclose := sectionEnd_bounds hend
      have hrest := skipLineEnd_bounds hclose.2.2
      simp only
      omega

/-- The nodes from offset `i` up to the end, put behind the nodes `done`, the last of which
comes first. -/
def buildOnto (limit depth : Nat) (done : List Node) (w : Window) (i : Nat) :
    Except SyntaxError (List Node) :=
  match hm : w.nextOpening i with
  | .error e => .error e
  | .ok none => .ok (Node.consText (w.slice i w.stop) done).reverse
  | .ok (some m) =>
    let done := Node.consText (w.slice i m.offset) done
    match m.sigil with
    | .close => .error ⟨.strayEnd, m.offset⟩
    | .block sense =>
      if limit ≤ depth then .error ⟨.nestingTooDeep limit, m.offset⟩ else
      match hs : w.enclosed m with
      | .error e => .error e
      | .ok sec =>
        have := enclosed_bounds hm hs
        match buildOnto limit (depth + 1) [] (w.upTo sec.close) sec.body with
        | .error e => .error e
        | .ok children =>
          let body := String.ofList (w.slice sec.body sec.close)
          buildOnto limit depth (.block sense sec.name body children :: done) w sec.rest
    | sigil =>
      match hf : w.finish m with
      | .error e => .error e
      | .ok (label, next) =>
        have := tag_bounds hm hf
        have := behindTag_bounds this.2.2 sigil
        buildOnto limit depth (((sigil.alone? label).getD []).reverse ++ done) w
          (w.behindTag sigil next)
termination_by w.stop - i
decreasing_by
  · simp only [upTo]
    omega
  all_goals omega

/-- The nodes from offset `start` up to the end. -/
def build (limit depth : Nat) (w : Window) (start : Nat) : Except SyntaxError (List Node) :=
  buildOnto limit depth [] w start

/-! ### What the reader sees -/

/-- The span from an offset up to the end. -/
def span (w : Window) (i : Nat) : Span := Span.between w.source i w.stop

theorem length_span (w : Window) (i : Nat) : (w.span i).chars.length = w.stop - i := by
  have hle := w.stop_le
  simp only [span, Span.between, List.length_drop, List.length_take]
  omega

theorem span_start (hi : i ≤ w.stop) : (w.span i).start = i := Nat.min_eq_left hi

theorem span_stop (hi : i ≤ w.stop) : (w.span i).stop = w.stop := by
  rw [Span.stop, length_span, span_start hi]
  omega

theorem span_eq (hi : i ≤ w.stop) : w.span i = ⟨i, (w.span i).chars⟩ :=
  congrArg (Span.mk · (w.span i).chars) (span_start hi)

theorem char?_add (w : Window) (i k : Nat) : w.char? (i + k) = (w.span i).chars[k]? := by
  simp only [char?, span, Span.between, List.getElem?_drop, List.getElem?_take]

theorem char?_eq (w : Window) (i : Nat) : w.char? i = (w.span i).chars[0]? := w.char?_add i 0

section Append

variable {front rest : List Char} (hi : i ≤ w.stop) (h : (w.span i).chars = front ++ rest)

include h

theorem char?_add_of_lt {k : Nat} (hk : k < front.length) : w.char? (i + k) = some front[k] := by
  rw [char?_add, h, List.getElem?_append_left hk, List.getElem?_eq_getElem hk]

theorem char?_add_length (k : Nat) : w.char? (i + front.length + k) = rest[k]? := by
  rw [Nat.add_assoc, char?_add, h, List.getElem?_append_right (Nat.le_add_right _ _),
    Nat.add_sub_cancel_left]

include hi

theorem add_length_le : i + front.length ≤ w.stop := by
  have hlength := congrArg List.length h
  rw [length_span, List.length_append] at hlength
  omega

theorem span_add_length : w.span (i + front.length) = ⟨i + front.length, rest⟩ := by
  have hchars : (w.span (i + front.length)).chars = (w.span i).chars.drop front.length := by
    simp only [span, Span.between, List.drop_drop]
  rw [span_eq (add_length_le hi h), hchars, h, List.drop_left]

theorem slice_add_length : w.slice i (i + front.length) = front := by
  have hle := add_length_le hi h
  have hslice : w.slice i (i + front.length) = (w.span i).chars.take front.length := by
    simp only [slice, span, Span.between, List.take_drop, List.take_take, Nat.min_eq_left hle]
  rw [hslice, h, List.take_left]

/-- A search goes past what it does not accept, and ends at what stands behind that. -/
theorem findChar_append {q : Char → Bool} (hfront : ∀ c ∈ front, q c = false)
    (hrest : ∀ c ∈ rest.head?, q c = true) :
    w.findChar q i = if rest = [] then none else some (i + front.length) := by
  have hle := add_length_le hi h
  have hlength := w.length_span i
  have hhead := char?_add_length h 0
  have hskip : ∀ k < front.length, (w.char? (i + k)).any q = false := by
    intro k hk
    rw [char?_add_of_lt h hk]
    exact hfront _ (List.getElem_mem hk)
  rw [h, List.length_append] at hlength
  rw [Nat.add_zero] at hhead
  rw [findChar, find_add hle hskip, find, hhead]
  rcases rest with _ | ⟨c, rest⟩
  · rw [List.length_nil] at hlength
    rw [if_neg (by omega), if_pos rfl]
  · have hfound : q c = true := hrest c rfl
    rw [List.length_cons] at hlength
    rw [if_pos (by omega)]
    simp [hfound]

end Append

theorem span_succ {c : Char} {rest : List Char} (hi : i ≤ w.stop)
    (h : (w.span i).chars = c :: rest) : w.span (i + 1) = ⟨i + 1, rest⟩ :=
  @span_add_length w i [c] rest hi h

/-! ### Reading in place and reading a span -/

theorem skipLineEnd_eq (w : Window) (i : Nat) :
    w.skipLineEnd i = i + (leadingLineEnd (w.span i).chars).length := by
  have hfirst := w.char?_eq i
  have hsecond := w.char?_add i 1
  unfold skipLineEnd
  rw [hfirst, hsecond]
  generalize (w.span i).chars = cs
  fun_cases leadingLineEnd cs with
  | case1 rest => simp
  | case2 rest => simp
  | case3 hfeed hpair =>
    rcases cs with _ | ⟨c, _ | ⟨d, rest⟩⟩ <;> simp_all

theorem skipLineEnd_span (hi : i ≤ w.stop) :
    (w.span i).skipLineEnd = w.span (w.skipLineEnd i) := by
  have hchars := (leadingLineEnd_append_drop (w.span i).chars).symm
  rw [span_eq hi, Span.skipLineEnd_eq, skipLineEnd_eq, span_add_length hi hchars]

theorem closeBraces_span (closing : Nat) (hi : i ≤ w.stop) :
    (w.span i).closeBraces closing = (w.closeBraces closing i).map w.span := by
  induction closing generalizing i with
  | zero =>
    rw [Span.closeBraces]
    rfl
  | succ closing ih =>
    have hfirst := w.char?_eq i
    rw [span_eq hi, closeBraces, hfirst]
    rcases hchars : (w.span i).chars with _ | ⟨c, rest⟩
    · rfl
    · by_cases hc : c = '}'
      · subst hc
        have hlt := @add_length_le w i ['}'] rest hi hchars
        have hrest := ih hlt
        rw [List.length_singleton, span_succ hi hchars] at hrest
        exact hrest
      · simp [Span.closeBraces, hc, Except.map]

theorem scanTag_span (closing : Nat) (hi : i ≤ w.stop) :
    (w.span i).scanTag closing = (w.scanTag closing i).map (Prod.map id w.span) := by
  obtain ⟨inner, hinner, hcases⟩ := exists_identifier (w.span i).chars
  have hspan := span_eq hi
  have hread : ∀ c ∈ inner, (c == '}' || c == '\n') = false := by
    intro c hc
    simp only [Bool.or_eq_false_iff, beq_eq_false_iff_ne]
    exact ⟨fun hbrace => hinner.1 (hbrace ▸ hc), fun hfeed => hinner.2 (hfeed ▸ hc)⟩
  unfold scanTag
  obtain hchars | ⟨rest, hchars⟩ | ⟨rest, hchars⟩ := hcases
  · have hlength := w.length_span i
    have hstop : i + inner.length = w.stop := by
      rw [hchars] at hlength
      omega
    have hfind := @findChar_append w i inner [] hi (by simpa using hchars) _ hread (by simp)
    rw [hspan, hchars, Span.scanTag_unclosed hinner, hstop, hfind]
    rfl
  · have hbrace := char?_add_length hchars 0
    have hclose := closeBraces_span closing (add_length_le hi hchars)
    rw [Nat.add_zero] at hbrace
    rw [span_add_length hi hchars] at hclose
    rw [hspan, hchars, Span.scanTag_brace hinner, hclose,
      findChar_append hi hchars hread (by simp)]
    simp only [reduceCtorEq, if_false, hbrace, List.getElem?_cons_zero, slice_add_length hi hchars]
    cases w.closeBraces closing (i + inner.length) <;> rfl
  · have hfeed := char?_add_length hchars 0
    rw [Nat.add_zero] at hfeed
    rw [hspan, hchars, Span.scanTag_lineFeed hinner, findChar_append hi hchars hread (by simp)]
    simp [hfeed, Except.map]

theorem skipComment_eq (w : Window) (i : Nat) : w.skipComment i =
    if i < w.stop then
      if w.char? i = some '}' ∧ w.char? (i + 1) = some '}' then .ok (i + 2)
      else w.skipComment (i + 1)
    else .error ⟨.expectedClose, w.stop⟩ := by
  unfold skipComment
  rw [find]
  by_cases hlt : i < w.stop
  · by_cases hpair : w.char? i = some '}' ∧ w.char? (i + 1) = some '}'
    · simp [hlt, hpair]
    · simp only [hlt, hpair, if_true, if_false, decide_false, Bool.false_eq_true]
  · simp [hlt]

theorem skipComment_go_span {cs : List Char} (hi : i ≤ w.stop) (h : (w.span i).chars = cs) :
    Span.skipComment.go i cs = (w.skipComment i).map w.span := by
  fun_induction Span.skipComment.go i cs with
  | case1 i rest =>
    have hlt : i < w.stop := @add_length_le w i ['}'] _ hi h
    have hbehind : w.span (i + 2) = ⟨i + 2, rest⟩ := @span_add_length w i ['}', '}'] rest hi h
    rw [skipComment_eq, if_pos hlt, if_pos (by simp [char?_eq w i, char?_add, h]), ← hbehind]
    rfl
  | case2 i c rest hpair ih =>
    have hlt : i < w.stop := @add_length_le w i [c] _ hi h
    have hne : ¬ (w.char? i = some '}' ∧ w.char? (i + 1) = some '}') := by
      rw [char?_eq, char?_add, h]
      rintro ⟨hc, hd⟩
      obtain ⟨rest', rfl⟩ := List.head?_eq_some_iff.1 (List.head?_eq_getElem?.trans hd)
      exact hpair rest' (Option.some_inj.1 hc) rfl
    rw [skipComment_eq, if_pos hlt, if_neg hne]
    exact ih hlt (by rw [span_succ hi h])
  | case3 i =>
    have hlength := w.length_span i
    rw [h, List.length_nil] at hlength
    have hstop : i = w.stop := by omega
    rw [skipComment_eq, if_neg (by omega), hstop]
    rfl

/-- The opening that is met from offset `i` on, with the literal text in front of it. -/
def opening (w : Window) (i : Nat) (m : Mark) : Opening :=
  ⟨w.slice i m.offset, m.offset, m.sigil, w.span m.rest⟩

@[simp] theorem opening_text (w : Window) (i : Nat) (m : Mark) :
    (w.opening i m).text = w.slice i m.offset := rfl

@[simp] theorem opening_offset (w : Window) (i : Nat) (m : Mark) :
    (w.opening i m).offset = m.offset := rfl

@[simp] theorem opening_sigil (w : Window) (i : Nat) (m : Mark) :
    (w.opening i m).sigil = m.sigil := rfl

theorem nextOpening_of_brace {rest : List Char} (hj : j ≤ w.stop)
    (hspan : w.span j = ⟨j, '{' :: rest⟩)
    (hfind : w.findChar (· == '{') i = some j) :
    (w.nextOpening i).map (Option.map (w.opening i)) = (w.span j).nextOpening.map
      (Option.map fun o => { o with text := w.slice i j ++ o.text }) := by
  have hsecond := w.char?_add j 1
  have hthird := w.char?_add j 2
  have hstop := span_stop hj
  have hchars : (w.span j).chars = '{' :: rest := congrArg Span.chars hspan
  rw [hchars] at hsecond hthird
  unfold nextOpening
  simp only [hfind, hsecond, hthird]
  rcases rest with _ | ⟨d, rest⟩
  · rw [hspan]
    rfl
  · by_cases hd : d = '{'
    · subst hd
      rcases rest with _ | ⟨c, rest⟩
      · rw [← hstop, hspan]
        rfl
      · have hbehind := @span_add_length w j ['{', '{'] (c :: rest) hj hchars
        have hbehind' := @span_add_length w j ['{', '{', c] rest hj hchars
        simp only [List.length_cons, List.length_nil] at hbehind hbehind'
        rw [hspan, Span.nextOpening_braces]
        cases hsigil : Sigil.ofChar? c <;>
          simp [hsigil, Except.map, opening, hbehind, hbehind']
    · rw [hspan]
      simp [Span.nextOpening, Except.map, hd]

theorem nextOpening_span (hi : i ≤ w.stop) :
    (w.span i).nextOpening = (w.nextOpening i).map (Option.map (w.opening i)) := by
  obtain ⟨text, rest, hchars, htext, hrest⟩ := exists_text_append (w.span i).chars
  have hfind : w.findChar (· == '{') i = if rest = [] then none else some (i + text.length) := by
    apply findChar_append hi hchars
    · intro c hc
      simp only [beq_eq_false_iff_ne]
      rintro rfl
      exact htext hc
    · simpa using hrest
  have hle := add_length_le hi hchars
  have hspan := span_add_length hi hchars
  have hslice := slice_add_length hi hchars
  rw [span_eq hi, hchars, Span.nextOpening_append htext, ← hspan]
  rcases rest with _ | ⟨c, rest⟩
  · rw [hspan, nextOpening, hfind]
    rfl
  · obtain rfl := hrest c rfl
    rw [nextOpening_of_brace hle hspan hfind, hslice]

theorem nextOpening_span_some {m : Mark} (hi : i ≤ w.stop)
    (hm : w.nextOpening i = .ok (some m)) :
    (w.span i).nextOpening = .ok (some (w.opening i m)) := by
  rw [nextOpening_span hi, hm]
  rfl

theorem finish_span {m : Mark} (hm : w.nextOpening i = .ok (some m)) :
    (w.opening i m).finish = (w.finish m).map (Prod.map id w.span) := by
  have hrest := (nextOpening_bounds hm).2.2
  have hskip := skipComment_go_span hrest rfl
  have hscan := scanTag_span 2 hrest
  obtain ⟨offset, sigil, rest⟩ := m
  cases sigil with
  | comment =>
    simp only [Opening.finish, finish, opening, Span.skipComment, span_start hrest, hskip]
    cases w.skipComment rest <;> rfl
  | field | block | close | inclusion => exact hscan

theorem sectionEnd_span (name : String) (pending : Nat) (hi : i ≤ w.stop) :
    (w.span i).sectionEnd name pending =
      (w.sectionEnd name pending i).map fun e => ⟨e.1, w.span e.2⟩ := by
  fun_induction sectionEnd w name pending i with
  | case1 pending i e hm =>
    rw [Span.sectionEnd_eq, nextOpening_span hi, hm]
    rfl
  | case2 pending i hm =>
    rw [Span.sectionEnd_eq, nextOpening_span hi, hm, span_stop hi]
    rfl
  | case3 pending i m hm e hf =>
    rw [Span.sectionEnd_eq, nextOpening_span_some hi hm]
    simp only [Except.map, finish_span hm, hf]
  | case4 pending i m hm label next hf hbounds hpending =>
    rw [Span.sectionEnd_eq, nextOpening_span_some hi hm]
    simp only [Except.map, finish_span hm, hf, Prod.map_apply, id_eq, opening_sigil, hpending,
      opening_offset]
  | case5 pending i m hm label next hf hbounds pending' hpending ih =>
    rw [Span.sectionEnd_eq, nextOpening_span_some hi hm]
    simp only [Except.map, finish_span hm, hf, Prod.map_apply, id_eq, opening_sigil, hpending]
    exact ih hbounds.2.2

theorem behindTag_span (hi : i ≤ w.stop) (sigil : Sigil) :
    (w.span i).behindTag sigil = w.span (w.behindTag sigil i) := by
  unfold Span.behindTag behindTag
  split
  · exact skipLineEnd_span hi
  · rfl

theorem upTo_span (hij : i ≤ j) (hj : j ≤ w.stop) : (w.span i).upTo j = (w.upTo j).span i := by
  have hsum : i + (j - i) = j := by omega
  simp only [Span.upTo, span, Span.between, upTo, List.take_drop, List.take_take,
    Nat.min_eq_left hj, Nat.min_eq_left hij, Nat.min_eq_left (hij.trans hj), hsum]

theorem upTo_span_text (hj : j ≤ w.stop) (i : Nat) :
    ((w.upTo j).span i).text = String.ofList (w.slice i j) := by
  simp only [Span.text, span, Span.between, upTo, slice, Nat.min_eq_left hj]

theorem enclosed_span {m : Mark} (hm : w.nextOpening i = .ok (some m)) :
    (w.opening i m).enclosed =
      (w.enclosed m).map fun sec =>
        ⟨sec.name, (w.upTo sec.close).span sec.body, w.span sec.rest⟩ := by
  unfold Opening.enclosed enclosed
  rw [finish_span hm]
  rcases hf : w.finish m with e | ⟨name, next⟩
  · rfl
  · have hnext := (tag_bounds hm hf).2.2
    have hbody := (skipLineEnd_bounds hnext).2
    simp only [Except.map, Prod.map_apply, id_eq, skipLineEnd_span hnext,
      sectionEnd_span name 0 hbody]
    rcases hend : w.sectionEnd name 0 (w.skipLineEnd next) with e | ⟨close, behind⟩
    · rfl
    · obtain ⟨hclose, hlt, hbehind⟩ := sectionEnd_bounds hend
      have hupTo := upTo_span hclose (hlt.le.trans hbehind)
      simp only [skipLineEnd_span hbehind, hupTo]

theorem buildOnto_span (limit depth : Nat) (done : List Node) (hi : i ≤ w.stop) :
    Template.buildOnto limit depth done (w.span i) = buildOnto limit depth done w i := by
  fun_induction buildOnto limit depth done w i with
  | case1 depth done w i e hm =>
    rw [buildOnto_eq, nextOpening_span hi, hm]
    rfl
  | case2 depth done w i hm =>
    rw [buildOnto_eq, nextOpening_span hi, hm]
    rfl
  | case3 depth done w i m hm hsigil =>
    rw [buildOnto_eq, nextOpening_span_some hi hm]
    simp only [opening_sigil, hsigil, opening_offset]
  | case4 depth done w i m hm sense hsigil hlimit =>
    rw [buildOnto_eq, nextOpening_span_some hi hm]
    simp only [opening_sigil, hsigil, opening_offset, if_pos hlimit]
  | case5 depth done w i m hm sense hsigil hlimit e hs =>
    rw [buildOnto_eq, nextOpening_span_some hi hm]
    simp only [opening_sigil, hsigil, if_neg hlimit, enclosed_span hm, hs, Except.map]
  | case6 depth done w i m hm sense hsigil hlimit sec hs hbounds e hbody ih =>
    have hchildren := ih (by simp only [upTo]; omega)
    rw [buildOnto_eq, nextOpening_span_some hi hm]
    simp only [opening_sigil, hsigil, if_neg hlimit, enclosed_span hm, hs, Except.map, hchildren,
      hbody]
  | case7 depth done w i m hm done' sense hsigil hlimit sec hs hbounds children hbody body ih
      ihRest =>
    have hchildren := ih (by simp only [upTo]; omega)
    have htext : ((w.upTo sec.close).span sec.body).text = body :=
      upTo_span_text (by omega) sec.body
    rw [buildOnto_eq, nextOpening_span_some hi hm]
    simp only [opening_sigil, hsigil, if_neg hlimit, enclosed_span hm, hs, Except.map, hchildren,
      hbody, htext, opening_text]
    exact ihRest hbounds.2.2.2
  | case8 depth done w i m hm e hf hclose hblock =>
    rw [buildOnto_eq, nextOpening_span_some hi hm]
    cases hsigil : m.sigil with
    | close => exact (hclose hsigil).elim
    | block sense => exact (hblock sense hsigil).elim
    | field | inclusion | comment =>
      simp only [opening_sigil, hsigil, finish_span hm, hf, Except.map]
  | case9 depth done w i m hm done' label next hf hbounds hclose hblock hnext ih =>
    have hbehind := ih hnext.2
    rw [← behindTag_span hbounds.2.2] at hbehind
    rw [buildOnto_eq, nextOpening_span_some hi hm]
    cases hsigil : m.sigil with
    | close => exact (hclose hsigil).elim
    | block sense => exact (hblock sense hsigil).elim
    | field | inclusion | comment =>
      rw [hsigil] at hbehind
      simp only [opening_sigil, hsigil, finish_span hm, hf, Except.map, Prod.map_apply, id_eq,
        opening_text]
      exact hbehind

end Window

/-- A stretch of a source is compiled in place, by offsets of the whole source, to what its
characters are compiled to by themselves. If they are refused the offset counts from where
the stretch begins. -/
theorem build_between {source : List Char} {start stop : Nat} (hstart : start ≤ stop)
    (hstop : stop ≤ source.length) (limit depth : Nat) :
    build limit depth (Span.between source start stop) =
        (⟨source, stop, hstop⟩ : Window).build limit depth start ∧
      build limit depth (Span.between source start stop) =
        (build limit depth (Span.ofSource ((source.take stop).drop start))).mapError
          (SyntaxError.shift start) := by
  have hspan : Span.between source start stop = ⟨start, (source.take stop).drop start⟩ := by
    rw [Span.between, Nat.min_eq_left hstart]
  constructor
  · exact (⟨source, stop, hstop⟩ : Window).buildOnto_span limit depth [] hstart
  · rw [hspan]
    exact buildOnto_ahead start limit depth [] 0 ((source.take stop).drop start)

def inclusionOfLine : List Char := "ab\x7b\x7b>c\x7d\x7d\r\nd".toList

/-- The end may cut the line end in two, which then stays, or the close braces. -/
theorem build_between_inclusionOfLine :
    (2 ≤ 9 ∧ 9 ≤ inclusionOfLine.length ∧
      build 1 0 (Span.between inclusionOfLine 2 9) = .ok [.inclusion "c", .text "\r"]) ∧
    2 ≤ 7 ∧ 7 ≤ inclusionOfLine.length ∧
      (⟨inclusionOfLine, 7, by decide⟩ : Window).build 1 0 2 = .error ⟨.expectedClose, 7⟩ := by
  refine ⟨⟨by decide, by decide, ?_⟩, by decide, by decide, ?_⟩
  · obtain ⟨-, hshift⟩ := @build_between inclusionOfLine 2 9 (by decide) (by decide) 1 0
    rw [hshift]
    with_unfolding_all rfl
  · obtain ⟨hplace, hshift⟩ := @build_between inclusionOfLine 2 7 (by decide) (by decide) 1 0
    rw [← hplace, hshift]
    with_unfolding_all rfl

end Mustache.Template
