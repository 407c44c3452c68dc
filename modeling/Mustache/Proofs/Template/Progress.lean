import Mathlib.Logic.Relation
import Mustache.Proofs.Position
import Mustache.Proofs.Template.Reading

/-! Progress and bounds of reading. The loops of the reader go on until a turn leaves them, and
reading breaks off where the source has no character. Main result: each turn that does not
leave its loop moves the cursor on, inside the span that is read; no character behind the span
is asked for; bodies are read on at most as many levels as the limit leaves, each strictly
inside the span around it; so compiling ends on every source and never asks for a character
that is not there. -/

namespace Mustache.Template

variable {limit depth i j : Nat} {w : Window}

/-! ### Turns -/

/-- A turn of compiling takes the cursor from one offset to another: it reads one tag, or goes
through a section and the line end behind it. -/
inductive Advances (limit : Nat) (w : Window) (depth : Nat) : Nat → Nat → Prop
  | tag {nodes nodes' : List Node} {i j : Nat} :
      w.buildTurn limit depth nodes i = .ok (.goOn nodes' j) → Advances limit w depth i j
  | block {nodes nodes' : List Node} {sense : Sense} {name : String} {i body close behind : Nat} :
      w.buildTurn limit depth nodes i = .ok (.enter nodes' sense name body close behind) →
      Advances limit w depth i (w.skipLineEnd behind)

theorem Advances.lt (h : Advances limit w depth i j) : i < j ∧ j ≤ w.stop := by
  cases h with
  | tag hturn => exact Window.buildTurn_inside hturn
  | block hturn =>
    obtain ⟨-, hbody, hclose, hbehind, hstop⟩ := Window.buildTurn_inside hturn
    have hbounds := Window.skipLineEnd_bounds hstop
    omega

/-- The cursor stays inside the window. -/
theorem Advances.le_of_reaches (h : Relation.ReflTransGen (Advances limit w depth) i j)
    (hi : i ≤ w.stop) : i ≤ j ∧ j ≤ w.stop := by
  induction h with
  | refl => exact ⟨le_rfl, hi⟩
  | tail _ hlast ih =>
    obtain ⟨hlt, hle⟩ := hlast.lt
    exact ⟨ih.1.trans hlt.le, hle⟩

/-! ### Levels -/

/-- A stretch that is compiled, from an offset up to the end of a window, and the number of
sections around it. -/
structure Stretch where
  window : Window
  start : Nat
  depth : Nat

/-- Compiling a stretch goes into the body of a section when its loop has come to it. -/
inductive Stretch.Enters (limit : Nat) : Stretch → Stretch → Prop
  | body {s : Stretch} {nodes nodes' : List Node} {sense : Sense} {name : String}
      {i body close behind : Nat} :
      Relation.ReflTransGen (Advances limit s.window s.depth) s.start i →
      s.window.buildTurn limit s.depth nodes i =
        .ok (.enter nodes' sense name body close behind) →
      Stretch.Enters limit s ⟨s.window.upTo close, body, s.depth + 1⟩

/-- A stretch lies strictly inside another. -/
def Stretch.Encloses (s s' : Stretch) : Prop :=
  s.start < s'.start ∧ s'.start ≤ s'.window.stop ∧ s'.window.stop < s.window.stop

namespace Stretch

variable {s s' s'' : Stretch}

theorem Encloses.trans (h : s.Encloses s') (h' : s'.Encloses s'') : s.Encloses s'' :=
  ⟨h.1.trans h'.1, h'.2.1, h'.2.2.trans h.2.2⟩

/-- A body lies strictly inside the stretch around it, one level further down. -/
theorem Enters.encloses (h : s.Enters limit s') (hstart : s.start ≤ s.window.stop) :
    s.Encloses s' ∧ s'.depth = s.depth + 1 ∧ s'.depth ≤ limit := by
  obtain ⟨hreaches, hturn⟩ := h
  have hcursor := Advances.le_of_reaches hreaches hstart
  obtain ⟨hroom, hbody, hclose, hbehind, hle⟩ := Window.buildTurn_inside hturn
  have hupTo : (s.window.upTo _).stop = _ := Nat.min_eq_left (hbehind.le.trans hle)
  refine ⟨⟨hcursor.1.trans_lt hbody, ?_, ?_⟩, rfl, hroom⟩
  · exact hupTo.symm ▸ hclose
  · exact hupTo.symm ▸ hbehind.trans_le hle

/-- Each body lies inside all that are around it, and there are no more of them than the limit
leaves. -/
theorem length_le_of_enters {bodies : List Stretch}
    (h : (s :: bodies).IsChain (Enters limit)) (hstart : s.start ≤ s.window.stop) :
    bodies.length ≤ limit - s.depth ∧ (s :: bodies).Pairwise Encloses := by
  induction bodies generalizing s with
  | nil => exact ⟨Nat.zero_le _, List.pairwise_singleton _ _⟩
  | cons s' bodies ih =>
    obtain ⟨henters, hchain⟩ := List.isChain_cons_cons.1 h
    obtain ⟨hencloses, hdepth, hroom⟩ := henters.encloses hstart
    obtain ⟨hlength, hpairwise⟩ := ih hchain hencloses.2.1
    refine ⟨?_, List.pairwise_cons.2 ⟨fun s'' hmem => ?_, hpairwise⟩⟩
    · rw [List.length_cons]
      omega
    · obtain rfl | hmem := List.mem_cons.1 hmem
      · exact hencloses
      · exact hencloses.trans ((List.pairwise_cons.1 hpairwise).1 s'' hmem)

end Stretch

/-! ### Tags -/

namespace Window

theorem getElem?_of_char? {c : Char} (h : w.char? i = some c) : w.source[i]? = some c := by
  rwa [char?, if_pos (lt_stop_of_char? h)] at h

/-- An identifier ends at the first close brace of the window, and its tag behind that and one
more. -/
theorem exists_closing (hi : i ≤ w.stop) {label : String} {behind : Span}
    (h : (w.span i).scanTag 2 = .ok (label, behind)) :
    ∃ close, i ≤ close ∧ close + 2 ≤ w.stop ∧ behind = w.span (close + 2) ∧
      '}' ∉ w.slice i close ∧ w.source[close]? = some '}' ∧ w.source[close + 1]? = some '}' := by
  obtain ⟨inner, hinner, hchars, hbehind, -⟩ := Span.scanTag_two_eq_ok_iff.1 h
  have hread : (w.span i).chars = (inner ++ ['}', '}']) ++ behind.chars := by simp [hchars]
  have hlength : i + (inner ++ ['}', '}']).length = i + inner.length + 2 := by
    rw [List.length_append]
    rfl
  have hle := add_length_le hi hread
  have hspan := span_add_length hi hread
  have hslice := slice_add_length hi hchars
  have hfirst := char?_add_length hchars 0
  have hsecond := char?_add_length hchars 1
  rw [hlength] at hle hspan
  rw [span_start hi] at hbehind
  refine ⟨i + inner.length, Nat.le_add_right _ _, hle, ?_, ?_, getElem?_of_char? hfirst,
    getElem?_of_char? hsecond⟩
  · rw [hspan, ← hbehind]
  · rw [hslice]
    exact hinner.1

theorem exists_closeTag (hi : i ≤ w.stop) {name : String} {e : SectionEnd}
    (h : (w.span i).sectionEnd name 0 = .ok e) :
    i ≤ e.start ∧ e.start < e.rest.start ∧ e.rest.start ≤ w.stop ∧
      ∃ inner, Sigil.close.Admits inner ∧ Sigil.close.label inner = name ∧
        w.slice e.start e.rest.start = (Piece.tag .close inner []).written := by
  have hplace := sectionEnd_span name 0 hi
  rw [h] at hplace
  obtain ⟨⟨close, behind⟩, hend, rfl⟩ := map_eq_ok_iff.1 hplace.symm
  obtain ⟨hclose, hlt, hle⟩ := sectionEnd_bounds hend
  obtain ⟨body, inner, hinner, hname, hchars, hbody⟩ := Span.sectionEnd_eq_ok h
  have hrest : (w.span behind).start = behind := span_start hle
  rw [span_start hi] at hbody
  simp only [hrest] at hchars hbody ⊢
  refine ⟨hclose, hlt, hle, inner, hinner, hname, ?_⟩
  have hcloseLe : close ≤ w.stop := hlt.le.trans hle
  have htag : (w.span close).chars =
      (Piece.tag .close inner []).written ++ (w.span behind).chars := by
    have hspan := span_add_length hi hchars
    rw [← hbody] at hspan
    rw [hspan]
    simp [Piece.written]
  have hbehind : behind = close + (Piece.tag .close inner []).written.length := by
    have hlength := congrArg List.length htag
    rw [List.length_append, length_span, length_span] at hlength
    omega
  rw [hbehind]
  exact slice_add_length hcloseLe htag

end Window

/-! ### Whole stretches -/

namespace Reading

theorem sectionEnd_comesTo_span (name : String) {turns : Nat} (hi : i ≤ w.stop)
    (hturns : w.stop - i < turns) :
    ComesTo i w.stop (Reading.sectionEnd w.source w.stop name turns 0 i)
      (((w.span i).sectionEnd name 0).map fun e => (e.start, e.rest.start)) := by
  have hread := @sectionEnd_comesTo i w i name turns 0 le_rfl hturns
  rw [Window.sectionEnd_span name 0 hi]
  cases hend : w.sectionEnd name 0 i with
  | error e => simpa only [hend, Except.map] using hread
  | ok e =>
    obtain ⟨-, -, hle⟩ := Window.sectionEnd_bounds hend
    simpa only [hend, Except.map, Window.span_start hle] using hread

theorem scanTag_comesTo_span (hi : i ≤ w.stop) :
    ComesTo i w.stop (Reading.scanTag w.source w.stop 2 i)
      (((w.span i).scanTag 2).map fun read => (read.1, read.2.start)) := by
  have hread := @scanTag_comesTo i w i 2 le_rfl
  rw [Window.scanTag_span 2 hi]
  cases hscan : w.scanTag 2 i with
  | error e => simpa only [hscan, Except.map] using hread
  | ok read =>
    obtain ⟨-, hle⟩ := Window.scanTag_bounds hscan
    simpa only [hscan, Except.map, Prod.map, id_eq, Window.span_start hle] using hread

/-- What reading keeps to in a window, from the offset `start` on. The stretch lies inside
`depth` sections. -/
structure KeepsWithin (limit : Nat) (w : Window) (start depth : Nat) : Prop where
  /-- Compiling ends with what the span is compiled to. It looks at characters of the span
  only, and there is one wherever it looks. -/
  build : ∀ turns, w.stop - start < turns →
    ComesTo start w.stop (Reading.build limit w.source turns w.stop depth [] start)
      (Template.build limit depth (w.span start))
  /-- So does the search for the end of a section. -/
  sectionEnd : ∀ name turns, w.stop - start < turns →
    ComesTo start w.stop (Reading.sectionEnd w.source w.stop name turns 0 start)
      (((w.span start).sectionEnd name 0).map fun e => (e.start, e.rest.start))
  /-- So does the reading of an identifier. -/
  scanTag : ComesTo start w.stop (Reading.scanTag w.source w.stop 2 start)
    (((w.span start).scanTag 2).map fun read => (read.1, read.2.start))
  /-- So does a turn of compiling, at any offset, -/
  buildTurn : ∀ nodes i turns, w.stop - i < turns →
    ComesTo i w.stop (Reading.buildTurn w.source w.stop limit turns depth nodes i)
      (w.buildTurn limit depth nodes i)
  /-- and if it does not leave the loop it moves the cursor on. -/
  advances : ∀ i j, Advances limit w depth i j → i < j ∧ j ≤ w.stop
  /-- So does a turn of the search for the end of a section, -/
  searchTurn : ∀ name pending i,
    ComesTo i w.stop (Reading.searchTurn w.source w.stop name pending i)
      (w.searchTurn name pending i)
  /-- and if it does not leave the loop it moves the cursor on. -/
  search_advances : ∀ name pending pending' i j,
    w.searchTurn name pending i = .ok (.goOn pending' j) → i < j ∧ j ≤ w.stop
  /-- A tag ends behind the first close brace of the span and its partner. -/
  tagEnd : ∀ label behind, (w.span start).scanTag 2 = .ok (label, behind) →
    start < behind.start ∧ behind.start ≤ w.stop ∧
      ∃ close, start ≤ close ∧ behind.start = close + 2 ∧ '}' ∉ w.slice start close ∧
        w.source[close]? = some '}' ∧ w.source[close + 1]? = some '}'
  /-- A section ends at a close tag of its name. -/
  closeTag : ∀ name e, (w.span start).sectionEnd name 0 = .ok e →
    start ≤ e.start ∧ e.start < e.rest.start ∧ e.rest.start ≤ w.stop ∧
      ∃ inner, Sigil.close.Admits inner ∧ Sigil.close.label inner = name ∧
        w.slice e.start e.rest.start = (Piece.tag .close inner []).written
  /-- Bodies within each other lie strictly inside each other, and there are no more of them
  than the limit leaves. -/
  levels : ∀ bodies, (⟨w, start, depth⟩ :: bodies).IsChain (Stretch.Enters limit) →
    bodies.length ≤ limit - depth ∧ (⟨w, start, depth⟩ :: bodies).Pairwise Stretch.Encloses

theorem keepsWithin (limit depth : Nat) (hi : i ≤ w.stop) : KeepsWithin limit w i depth where
  build turns hturns := by
    have hread := build_comesTo limit depth [] w hi hturns
    rwa [← Window.buildOnto_span limit depth [] hi] at hread
  sectionEnd name turns hturns := sectionEnd_comesTo_span name hi hturns
  scanTag := scanTag_comesTo_span hi
  buildTurn nodes i turns hturns := buildTurn_comesTo limit depth nodes le_rfl hturns
  advances i j h := h.lt
  searchTurn name pending i := searchTurn_comesTo name pending le_rfl
  search_advances name pending pending' i j h := Window.searchTurn_inside h
  tagEnd label behind h := by
    obtain ⟨close, hle, hstop, rfl, hfirst, hbraces⟩ := Window.exists_closing hi h
    rw [Window.span_start hstop]
    exact ⟨by omega, hstop, close, hle, rfl, hfirst, hbraces⟩
  closeTag name e h := Window.exists_closeTag hi h
  levels bodies h := Stretch.length_le_of_enters h hi

/-- Reading moves on at every turn and stays inside the span that is read, whatever stands in
it. So compiling a source ends, with its nodes or with where it is malformed, and asks for no
character that is not there; nor does the search for the line of that place. -/
theorem build_advances_within {source : List Char} {start stop : Nat} (hstart : start ≤ stop)
    (hstop : stop ≤ source.length) (limit depth : Nat) :
    KeepsWithin limit ⟨source, stop, hstop⟩ start depth ∧
      (∀ turns, source.length < turns →
        ComesTo 0 source.length (Reading.build limit source turns source.length 0 [] 0)
          (parse limit source)) ∧
      ∀ (index : LineIndex) (offset : Int),
        LineIndex.lowerBound index.lineFeeds offset 0 index.lineFeeds.size ≤
          index.lineFeeds.size := by
  refine ⟨keepsWithin limit depth hstart, fun turns hturns => ?_,
    fun _ offset => LineIndex.lowerBound_le _ offset (Nat.zero_le _)⟩
  have hwhole : Span.between source 0 source.length = Span.ofSource source := by
    simp [Span.between, Span.ofSource]
  have hread := (@keepsWithin 0 ⟨source, source.length, le_rfl⟩ limit 0 (Nat.zero_le _)).build
    turns (by omega)
  rwa [Window.span, hwhole] at hread

/-- A section with nothing in it but a line end. -/
def emptySection : List Char := "\x7b\x7b#a\x7d\x7d\n\x7b\x7b/a\x7d\x7d\n".toList

/-- The window in which its last line end does not stand. -/
def emptySectionCut : Window := ⟨emptySection, 13, by decide⟩

/-- Its body is read where the limit allows one section, and nothing inside it. -/
theorem build_advances_within_emptySection :
    (0 ≤ 13 ∧ 13 ≤ emptySection.length) ∧
      [⟨emptySectionCut, 0, 0⟩, ⟨emptySectionCut.upTo 7, 7, 1⟩].IsChain (Stretch.Enters 1) ∧
      ∀ s, ¬ [⟨emptySectionCut, 0, 0⟩, ⟨emptySectionCut.upTo 7, 7, 1⟩, s].IsChain
        (Stretch.Enters 1) := by
  refine ⟨by decide, ?_, fun s hchain => ?_⟩
  · have hturn : emptySectionCut.buildTurn 1 0 [] 0 = .ok (.enter [] .normal "a" 7 7 13) := by
      with_unfolding_all rfl
    exact List.isChain_cons_cons.2 ⟨.body .refl hturn, .singleton _⟩
  · obtain ⟨hkeeps, -⟩ := @build_advances_within emptySection 0 13 (by decide) (by decide) 1 0
    have hlevels : 2 ≤ 1 - 0 := (hkeeps.levels _ hchain).1
    omega

end Reading

end Mustache.Template
