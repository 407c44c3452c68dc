import Mustache.Proofs.Template.Nesting

/-! A parser with a stack. It reads the pieces of a source once, from left to right,
and keeps the sections that are open: an open tag pushes one if there is room, a close
tag has to name the innermost one and completes it, and every other piece adds to the
level that it stands on. Main result: compiling a source, which keeps no stack, agrees
with this parser on which sources it accepts and on the nodes. -/

namespace Mustache.Template

/-- What has been read on one level: its nodes, the last first, and its text. -/
structure Level where
  nodes : List Node
  text : List Char

/-- A section that is still open, and the level on which it stands, up to its open tag. -/
structure OpenSection where
  sense : Sense
  name : String
  outside : Level

/-- The open sections, the innermost first, and the level inside all of them. -/
structure Stack where
  sections : List OpenSection
  level : Level

namespace Level

def empty : Level := ⟨[], []⟩

/-- A level after nodes have been read from a stretch of text. -/
def add (level : Level) (nodes : List Node) (text : List Char) : Level :=
  ⟨nodes.reverse ++ level.nodes, level.text ++ text⟩

@[simp] theorem add_nil (level : Level) : level.add [] [] = level := by simp [add]

@[simp] theorem add_add (level : Level) (front back : List Node) (text text' : List Char) :
    (level.add front text).add back text' = level.add (front ++ back) (text ++ text') := by
  simp [add]

end Level

namespace Stack

/-- Reads one piece, with room for `limit` open sections. -/
def step (limit : Nat) (st : Stack) (p : Piece) : Option Stack :=
  match p with
  | .tag (.block sense) inner _ =>
    if st.sections.length < limit then
      some ⟨⟨sense, (Sigil.block sense).label inner, st.level.add [] p.written⟩ :: st.sections,
        .empty⟩
    else none
  | .tag .close inner _ =>
    match st.sections with
    | [] => none
    | sec :: sections =>
      if Sigil.close.label inner = sec.name then
        let block := .block sec.sense sec.name (String.ofList st.level.text) st.level.nodes.reverse
        some ⟨sections, sec.outside.add [block] (st.level.text ++ p.written)⟩
      else none
  | p => p.alone?.map fun nodes => { st with level := st.level.add nodes p.written }

/-- Reads pieces in order. -/
def run (limit : Nat) : List Piece → Stack → Option Stack
  | [], st => some st
  | p :: ps, st => (st.step limit p).bind (run limit ps)

/-- The nodes of a whole source, if no section is left open at its end. -/
def read (limit : Nat) (ps : List Piece) : Option (List Node) :=
  match run limit ps ⟨[], .empty⟩ with
  | some ⟨[], level⟩ => some level.nodes.reverse
  | _ => none

theorem run_append (limit : Nat) (ps qs : List Piece) (st : Stack) :
    run limit (ps ++ qs) st = (run limit ps st).bind (run limit qs) := by
  induction ps generalizing st with
  | nil => rfl
  | cons p ps ih =>
    rw [List.cons_append, run, run, Option.bind_assoc]
    congr 1
    funext st'
    exact ih st'

theorem step_alone {p : Piece} {nodes : List Node} (h : p.alone? = some nodes) (limit : Nat)
    (sections : List OpenSection) (level : Level) :
    (⟨sections, level⟩ : Stack).step limit p = some ⟨sections, level.add nodes p.written⟩ := by
  cases p with
  | text content => simp only [step, h, Option.map_some]
  | tag sigil inner lineEnd =>
    cases sigil with
    | block | close => simp [Piece.alone?, Sigil.alone?] at h
    | field | comment | inclusion => simp only [step, h, Option.map_some]

theorem step_block_eq_some_iff {limit : Nat} {sense : Sense} {inner lineEnd : List Char}
    {st st' : Stack} : st.step limit (.tag (.block sense) inner lineEnd) = some st' ↔
      st.sections.length < limit ∧ st' = ⟨⟨sense, (Sigil.block sense).label inner,
        st.level.add [] (Piece.tag (.block sense) inner lineEnd).written⟩ :: st.sections,
        .empty⟩ := by
  rw [step]
  split
  · rename_i hlt
    simp [hlt, eq_comm]
  · rename_i hge
    simp [hge]

theorem step_close_eq_some_iff {limit : Nat} {inner lineEnd : List Char} {sec : OpenSection}
    {sections : List OpenSection} {level : Level} {st : Stack} :
    (⟨sec :: sections, level⟩ : Stack).step limit (.tag .close inner lineEnd) = some st ↔
      Sigil.close.label inner = sec.name ∧ st = ⟨sections, sec.outside.add
        [.block sec.sense sec.name (String.ofList level.text) level.nodes.reverse]
        (level.text ++ (Piece.tag .close inner lineEnd).written)⟩ := by
  simp only [step]
  split
  · rename_i hname
    simp [hname, eq_comm]
  · rename_i hname
    simp [hname]

end Stack

/-- Pieces that nest properly leave the open sections as they are. -/
theorem Forms.run {room : Nat} {ps : List Piece} {nodes : List Node} (h : Forms room ps nodes)
    {limit : Nat} {sections : List OpenSection} (hroom : limit - sections.length = room)
    (level : Level) :
    Stack.run limit ps ⟨sections, level⟩ = some ⟨sections, level.add nodes (written ps)⟩ := by
  induction h generalizing sections level with
  | nil => simp [Stack.run]
  | alone hp _ ih =>
    rw [Stack.run, Stack.step_alone hp, Option.bind_some, ih hroom, Level.add_add, written_cons]
  | @block room sense inner lineEnd inner' lineEnd' body ps children nodes
      hname _ _ ihbody ihrest =>
    have hlt : sections.length < limit := by omega
    rw [Stack.run, Stack.step_block_eq_some_iff.2 ⟨hlt, rfl⟩, Option.bind_some, Stack.run_append,
      ihbody (by simp; omega), Option.bind_some, Stack.run,
      Stack.step_close_eq_some_iff.2 ⟨hname, rfl⟩, Option.bind_some, ihrest hroom]
    simp [Level.add, Level.empty]

/-- An accepting run reads properly nested pieces up to the close tag of the innermost
open section, or up to the end if none is open. -/
theorem Stack.exists_forms_of_run {limit : Nat} {ps : List Piece} {sections : List OpenSection}
    {level final : Level} (h : run limit ps ⟨sections, level⟩ = some ⟨[], final⟩) :
    ∃ inside nodes behind, ps = inside ++ behind ∧
      Forms (limit - sections.length) inside nodes ∧
      run limit behind ⟨sections, level.add nodes (written inside)⟩ = some ⟨[], final⟩ ∧
      (behind = [] ∨ ∃ inner lineEnd behind', behind = .tag .close inner lineEnd :: behind') := by
  induction hn : ps.length using Nat.strong_induction_on generalizing ps sections level with
  | h n ih =>
    subst hn
    cases ps with
    | nil => exact ⟨[], [], [], rfl, .nil, by simpa using h, .inl rfl⟩
    | cons p ps =>
      rw [run, Option.bind_eq_some_iff] at h
      obtain ⟨st, hstep, hrun⟩ := h
      cases hp : p.alone? with
      | some front =>
        rw [step_alone hp, Option.some.injEq] at hstep
        subst hstep
        obtain ⟨inside, nodes, behind, rfl, hforms, hbehind, hend⟩ := ih _ (by simp) hrun rfl
        refine ⟨p :: inside, front ++ nodes, behind, rfl, .alone hp hforms, ?_, hend⟩
        rwa [written_cons, ← Level.add_add]
      | none =>
        obtain ⟨sense, inner, lineEnd, rfl⟩ | ⟨inner, lineEnd, rfl⟩ := Piece.alone?_eq_none hp
        · obtain ⟨hlt, rfl⟩ := step_block_eq_some_iff.1 hstep
          -- the body goes up to a close tag, since its section is not left open
          obtain ⟨body, children, closing, rfl, hbody, hclosing, hend⟩ := ih _ (by simp) hrun rfl
          obtain rfl | ⟨inner', lineEnd', ps, rfl⟩ := hend
          · simp [run] at hclosing
          rw [run, Option.bind_eq_some_iff] at hclosing
          obtain ⟨st, hstep, hrun⟩ := hclosing
          obtain ⟨hname, rfl⟩ := step_close_eq_some_iff.1 hstep
          obtain ⟨inside, nodes, behind, rfl, hforms, hbehind, hend⟩ :=
            ih _ (by simp; omega) hrun rfl
          refine ⟨.tag (.block sense) inner lineEnd ::
            (body ++ .tag .close inner' lineEnd' :: inside),
            .block sense ((Sigil.block sense).label inner) (String.ofList (written body))
              children :: nodes, behind, by simp, ?_, ?_, hend⟩
          · simp only [List.length_cons] at hlt hbody
            rw [show limit - sections.length = limit - (sections.length + 1) + 1 by omega]
              at hforms ⊢
            exact .block hname hbody hforms
          · rw [← hbehind]
            simp [Level.add, Level.empty]
        · refine ⟨[], [], _, rfl, .nil, ?_, .inr ⟨inner, lineEnd, ps, rfl⟩⟩
          rw [written_nil, Level.add_nil, run, hstep, Option.bind_some, hrun]

/-- The parser with a stack accepts what nests properly, and builds what it stands for. -/
theorem Stack.read_eq_some_iff {limit : Nat} {ps : List Piece} {nodes : List Node} :
    Stack.read limit ps = some nodes ↔ Forms limit ps nodes := by
  constructor
  · intro h
    unfold read at h
    split at h
    · rename_i final hrun
      obtain ⟨inside, nodes', behind, rfl, hforms, hbehind, rfl | ⟨inner, lineEnd, behind', rfl⟩⟩ :=
        exists_forms_of_run hrun
      · simp only [run, Option.some.injEq, Stack.mk.injEq] at hbehind
        rw [← hbehind.2] at h
        simp [Level.add, Level.empty] at h
        subst h
        simpa using hforms
      · simp [run, step] at hbehind
    · simp at h
  · intro h
    rw [read, h.run rfl]
    simp [Level.add, Level.empty]

/-- Compiling a source agrees with reading its pieces once with a stack: it succeeds just
if the source is cut into literal text and whole tags, each close tag names the innermost
open section, none is left open at the end and never are more than `limit` open; and it
results in the nodes that the parser with the stack builds. -/
theorem parse_eq_ok_iff_stack (limit : Nat) (source : List Char) (nodes : List Node) :
    parse limit source = .ok nodes ↔
      ∃ ps, CutsInto source ps ∧ Stack.read limit ps = some nodes := by
  simp only [Stack.read_eq_some_iff, parse_eq_ok_iff_forms, cutsInto_iff, and_assoc]

end Mustache.Template
