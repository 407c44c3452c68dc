import Mathlib.Data.List.DropRight
import Mustache.Proofs.Template.Nesting

/-! Printing nodes. Every list of nodes that compiling can yield has a canonical source,
in which names stand between single spaces, the tags other than fields end their lines,
and an empty comment parts two adjacent texts. Main results: compiling yields just the
well-formed lists of nodes, and it reads the canonical source of each back. -/

namespace Mustache.Template

/-- What a tag can name: neither a close brace nor a line feed occurs, and no space
surrounds it. It may be empty, hold open braces and begin with a sigil. -/
structure IsName (name : String) : Prop where
  noBrace : '}' ∉ name.toList
  noLineFeed : '\n' ∉ name.toList
  noSpaceInFront : name.toList.head? ≠ some ' '
  noSpaceBehind : name.toList.getLast? ≠ some ' '

mutual

/-- The number of sections that nest in a node. -/
def Node.height : Node → Nat
  | .block _ _ _ children => heightOf children + 1
  | .text _ | .field _ | .inclusion _ => 0

/-- The number of sections that nest in a list of nodes. -/
def heightOf : List Node → Nat
  | [] => 0
  | node :: nodes => max node.height (heightOf nodes)

end

mutual

/-- A text is not empty and holds no open brace, names are names, and the children of a
section are what its own body compiles to. -/
def Node.WellFormed (limit : Nat) : Node → Prop
  | .text content => content ≠ "" ∧ '{' ∉ content.toList
  | .field name => IsName name
  | .inclusion name => IsName name
  | .block _ name body children => IsName name ∧
      parse limit body.toList = .ok children ∧ AllWellFormed limit children

def AllWellFormed (limit : Nat) : List Node → Prop
  | [] => True
  | node :: nodes => node.WellFormed limit ∧ AllWellFormed limit nodes

end

/-- The canonical form of a tag: its name between single spaces, and behind it the line
end that it takes in, if its kind does. -/
def Sigil.printed (sigil : Sigil) (name : String) : List Char :=
  '{' :: '{' :: (sigil.chars ++ ' ' :: (name.toList ++ [' ', '}', '}'])) ++
    if sigil.takesLineEnd then ['\n'] else []

/-- The canonical form of a node. The body of a section stands as it is. -/
def Node.printed : Node → List Char
  | .text content => content.toList
  | .field name => Sigil.field.printed name
  | .inclusion name => Sigil.inclusion.printed name
  | .block sense name body _ =>
    (Sigil.block sense).printed name ++ body.toList ++ Sigil.close.printed name

/-- What parts a node from the nodes behind it: an empty comment between two texts. -/
def Node.parting : Node → List Node → List Char
  | .text _, .text _ :: _ => ['{', '{', '!', '}', '}', '\n']
  | _, _ => []

/-- The canonical source of nodes. -/
def printed : List Node → List Char
  | [] => []
  | node :: nodes => node.printed ++ node.parting nodes ++ printed nodes

/-! ### Names -/

theorem trimSpaces_eq (text : List Char) :
    trimSpaces text = (text.dropWhile (· == ' ')).rdropWhile (· == ' ') := rfl

theorem mem_of_mem_trimSpaces {c : Char} {text : List Char} (h : c ∈ trimSpaces text) :
    c ∈ text := by
  rw [trimSpaces_eq] at h
  exact (List.dropWhile_suffix _).subset ((List.rdropWhile_prefix _ _).subset h)

theorem head?_dropWhile_space (text : List Char) :
    (text.dropWhile (· == ' ')).head? ≠ some ' ' := by
  intro hc
  have := List.head?_dropWhile_not (· == ' ') text
  simp [hc] at this

theorem isName_trimSpaces {inner : List Char} (h : '}' ∉ inner ∧ '\n' ∉ inner) :
    IsName (String.ofList (trimSpaces inner)) where
  noBrace := fun hc => h.1 (mem_of_mem_trimSpaces (by simpa using hc))
  noLineFeed := fun hc => h.2 (mem_of_mem_trimSpaces (by simpa using hc))
  noSpaceInFront := by
    rw [String.toList_ofList, trimSpaces_eq]
    intro hc
    obtain ⟨back, hback⟩ := List.rdropWhile_prefix (· == ' ') (inner.dropWhile (· == ' '))
    apply head?_dropWhile_space inner
    rw [← hback, List.head?_append, hc]
    rfl
  noSpaceBehind := by
    rw [String.toList_ofList, trimSpaces, List.getLast?_reverse]
    exact head?_dropWhile_space _

theorem IsName.trimSpaces {name : String} (h : IsName name) :
    String.ofList (trimSpaces (' ' :: (name.toList ++ [' ']))) = name := by
  have hfront : (name.toList ++ [' ']).dropWhile (· == ' ') =
      if name.toList = [] then [] else name.toList ++ [' '] := by
    have hhead := h.noSpaceInFront
    generalize name.toList = cs at hhead ⊢
    cases cs with
    | nil => rfl
    | cons c cs =>
      have hc : c ≠ ' ' := by simpa using hhead
      simp [hc]
  have hback : name.toList.rdropWhile (· == ' ') = name.toList := by
    rw [List.rdropWhile_eq_self_iff]
    intro hne hlast
    apply h.noSpaceBehind
    rw [List.getLast?_eq_some_getLast hne]
    simpa using hlast
  rw [trimSpaces_eq, List.dropWhile_cons_of_pos (by rfl), hfront]
  split
  · rename_i hempty
    rw [List.rdropWhile_nil, ← hempty, String.ofList_toList]
  · rw [List.rdropWhile_concat_pos _ _ _ (by rfl), hback, String.ofList_toList]

/-! ### Heights -/

theorem heightOf_append (front back : List Node) :
    heightOf (front ++ back) = max (heightOf front) (heightOf back) := by
  induction front with
  | nil => simp [heightOf]
  | cons node front ih => simp [heightOf, ih, Nat.max_assoc]

theorem allWellFormed_append (limit : Nat) (front back : List Node) :
    AllWellFormed limit (front ++ back) ↔
      AllWellFormed limit front ∧ AllWellFormed limit back := by
  induction front with
  | nil => simp [AllWellFormed]
  | cons node front ih => simp [AllWellFormed, ih, and_assoc]

/-- A piece that stands for itself opens no section. -/
theorem heightOf_alone {p : Piece} {front : List Node} (h : p.alone? = some front) :
    heightOf front = 0 := by
  cases p with
  | text content =>
    obtain rfl := Option.some.inj h
    simp [heightOf, Node.height]
  | tag sigil inner lineEnd =>
    cases sigil with
    | block | close => simp [Piece.alone?, Sigil.alone?] at h
    | field | inclusion | comment =>
      obtain rfl := Option.some.inj h
      simp [heightOf, Node.height]

theorem Forms.heightOf_le {room : Nat} {ps : List Piece} {nodes : List Node}
    (h : Forms room ps nodes) : heightOf nodes ≤ room := by
  induction h with
  | nil => simp [heightOf]
  | alone hp _ ih => simpa [heightOf_append, heightOf_alone hp] using ih
  | block _ _ _ ihbody ihrest =>
    simp only [heightOf, Node.height]
    omega

/-- Room for the sections that there are is as good as any. -/
theorem Forms.of_heightOf_le {room room' : Nat} {ps : List Piece} {nodes : List Node}
    (h : Forms room ps nodes) (hle : heightOf nodes ≤ room') : Forms room' ps nodes := by
  induction h generalizing room' with
  | nil => exact .nil
  | alone hp _ ih =>
    rw [heightOf_append, heightOf_alone hp, Nat.zero_max] at hle
    exact .alone hp (ih hle)
  | block hname _ _ ihbody ihrest =>
    simp only [heightOf, Node.height] at hle
    obtain ⟨room', rfl⟩ : ∃ r, room' = r + 1 := ⟨room' - 1, by omega⟩
    exact .block hname (ihbody (by omega)) (ihrest (by omega))

/-! ### What compiles is well formed -/

theorem Piece.Before.wellFormed {p : Piece} {rest : List Char} {front : List Node}
    (limit : Nat) (hp : p.Before rest) (h : p.alone? = some front) :
    AllWellFormed limit front := by
  cases p with
  | text content =>
    obtain ⟨hne, hbrace, -⟩ := hp
    obtain rfl := Option.some.inj h
    simpa [AllWellFormed, Node.WellFormed, hbrace] using hne
  | tag sigil inner lineEnd =>
    cases sigil with
    | block | close => simp [Piece.alone?, Sigil.alone?] at h
    | comment =>
      obtain rfl := Option.some.inj h
      trivial
    | field =>
      obtain rfl := Option.some.inj h
      exact ⟨isName_trimSpaces hp.1.1, trivial⟩
    | inclusion =>
      obtain rfl := Option.some.inj h
      exact ⟨isName_trimSpaces hp.1, trivial⟩

theorem Forms.allWellFormed {room limit : Nat} {ps : List Piece} {nodes : List Node}
    (h : Forms room ps nodes) (hcut : WellCut ps) (hle : room ≤ limit) :
    AllWellFormed limit nodes := by
  induction h with
  | nil => trivial
  | alone hp _ ih =>
    rw [allWellFormed_append]
    exact ⟨hcut.1.wellFormed limit hp, ih hcut.2 hle⟩
  | block _ hbody _ ihbody ihrest =>
    obtain ⟨hopen, hcut⟩ := hcut
    obtain ⟨hinside, -, hbehind⟩ := (wellCut_append_tag ..).1 hcut
    have hchildren := hbody.of_heightOf_le (hbody.heightOf_le.trans (by omega : _ ≤ limit))
    refine ⟨⟨isName_trimSpaces hopen.1, ?_, ihbody hinside (by omega)⟩, ihrest hbehind hle⟩
    rw [String.toList_ofList, parse_eq_ok_iff_forms]
    exact ⟨_, hinside, rfl, hchildren⟩

/-! ### What is well formed is read back -/

def Sigil.piece (sigil : Sigil) (name : String) : Piece :=
  .tag sigil (' ' :: (name.toList ++ [' '])) (if sigil.takesLineEnd then ['\n'] else [])

theorem Sigil.written_piece (sigil : Sigil) (name : String) :
    (sigil.piece name).written = sigil.printed name := by
  simp [Sigil.piece, Sigil.printed, Piece.written]

theorem IsName.before_piece {name : String} (h : IsName name) {sigil : Sigil}
    (hsigil : sigil ≠ .comment) (rest : List Char) : (sigil.piece name).Before rest := by
  have hinner : '}' ∉ ' ' :: (name.toList ++ [' ']) ∧ '\n' ∉ ' ' :: (name.toList ++ [' ']) := by
    have := h.noBrace
    have := h.noLineFeed
    simp_all
  refine ⟨?_, ?_⟩
  · cases sigil with
    | comment => exact absurd rfl hsigil
    | field => exact ⟨hinner, by rintro c ⟨⟩; rfl⟩
    | block | close | inclusion => exact hinner
  · split <;> rfl

theorem IsName.label_piece {name : String} (h : IsName name) {sigil : Sigil}
    (hsigil : sigil ≠ .comment) : sigil.label (' ' :: (name.toList ++ [' '])) = name := by
  cases sigil with
  | comment => exact absurd rfl hsigil
  | field | block | close | inclusion => exact h.trimSpaces

theorem IsName.forms_block {name : String} (h : IsName name) (sense : Sense) {room : Nat}
    {inside ps : List Piece} {children nodes : List Node} (hinside : Forms room inside children)
    (hps : Forms (room + 1) ps nodes) :
    Forms (room + 1) ((Sigil.block sense).piece name :: (inside ++ Sigil.close.piece name :: ps))
      (.block sense name (String.ofList (written inside)) children :: nodes) := by
  have hopen := @IsName.label_piece name h (.block sense) (by simp)
  have hclose := @IsName.label_piece name h .close (by simp)
  have := @Forms.block room sense _ ['\n'] _ ['\n'] _ _ _ _ (hclose.trans hopen.symm) hinside hps
  rwa [hopen] at this

/-- The empty comment that parts two texts. -/
def partingPiece : Piece := .tag .comment [] ['\n']

/-- What follows a text in canonical form begins with a tag. -/
theorem head?_parting_printed (content : String) (nodes : List Node) :
    ∀ c ∈ ((Node.text content).parting nodes ++ printed nodes).head?, c = '{' := by
  match nodes with
  | [] => exact fun c hc => nomatch hc
  | .text _ :: _ | .field _ :: _ | .inclusion _ :: _ | .block _ _ _ _ :: _ =>
    rintro c ⟨⟩
    rfl

/-- What parts a node from those behind it stands for none. -/
theorem exists_parted {room : Nat} {ps : List Piece} {nodes : List Node} (node : Node)
    (hcut : WellCut ps) (hwritten : written ps = printed nodes) (hforms : Forms room ps nodes) :
    ∃ qs, WellCut qs ∧ written qs = node.parting nodes ++ printed nodes ∧ Forms room qs nodes := by
  unfold Node.parting
  split
  · refine ⟨partingPiece :: ps, ⟨⟨?_, rfl⟩, hcut⟩, ?_,
      @Forms.alone room partingPiece _ _ _ rfl hforms⟩
    · exact fun hends => absurd hends.length_le (by decide)
    · rw [written_cons, hwritten]
      rfl
  · exact ⟨ps, hcut, hwritten, hforms⟩

/-- The canonical source of well-formed nodes is cut into pieces that stand for them. -/
theorem exists_forms_printed {room limit : Nat} {nodes : List Node}
    (h : AllWellFormed limit nodes) (hroom : heightOf nodes ≤ room) :
    ∃ ps, WellCut ps ∧ written ps = printed nodes ∧ Forms room ps nodes := by
  induction nodes with
  | nil => exact ⟨[], trivial, rfl, .nil⟩
  | cons node nodes ih =>
    obtain ⟨hnode, hnodes⟩ := h
    simp only [heightOf] at hroom
    obtain ⟨ps, hcut, hwritten, hforms⟩ := ih hnodes (by omega)
    cases node with
    | text content =>
      obtain ⟨hne, hbrace⟩ := hnode
      have halone : (Piece.text content.toList).alone? = some [.text content] := by
        rw [Piece.alone?, String.ofList_toList]
      obtain ⟨qs, hqs, hparted, hforms⟩ := exists_parted (.text content) hcut hwritten hforms
      have hbefore : (Piece.text content.toList).Before (written qs) :=
        ⟨by simpa using hne, hbrace, hparted ▸ head?_parting_printed content nodes⟩
      refine ⟨.text content.toList :: qs, ⟨hbefore, hqs⟩, ?_, .alone halone hforms⟩
      rw [written_cons, hparted, printed, List.append_assoc]
      rfl
    | field name =>
      refine ⟨Sigil.field.piece name :: ps, ⟨hnode.before_piece (by simp) _, hcut⟩, ?_, ?_⟩
      · simp [Sigil.written_piece, hwritten, printed, Node.printed, Node.parting]
      · have := @Forms.alone room (Sigil.field.piece name) _ _ _ rfl hforms
        rwa [hnode.label_piece (by simp)] at this
    | inclusion name =>
      refine ⟨Sigil.inclusion.piece name :: ps, ⟨hnode.before_piece (by simp) _, hcut⟩, ?_, ?_⟩
      · simp [Sigil.written_piece, hwritten, printed, Node.printed, Node.parting]
      · have := @Forms.alone room (Sigil.inclusion.piece name) _ _ _ rfl hforms
        rwa [hnode.label_piece (by simp)] at this
    | block sense name body children =>
      obtain ⟨hname, hbody, -⟩ := hnode
      simp only [Node.height] at hroom
      obtain ⟨room, rfl⟩ : ∃ r, room = r + 1 := ⟨room - 1, by omega⟩
      obtain ⟨inside, hinside, hbodyWritten, hchildren⟩ := parse_eq_ok_iff_forms.1 hbody
      refine ⟨(Sigil.block sense).piece name :: (inside ++ Sigil.close.piece name :: ps),
        ⟨hname.before_piece (by simp) _, ?_⟩, ?_, ?_⟩
      · exact (wellCut_append_tag ..).2 ⟨hinside, hname.before_piece (by simp) _, hcut⟩
      · simp [written_cons, written_append, Sigil.written_piece, hwritten, hbodyWritten, printed,
          Node.printed, Node.parting]
      · rw [← @String.ofList_toList body, ← hbodyWritten]
        exact hname.forms_block sense (hchildren.of_heightOf_le (by omega)) hforms

/-- Compiling yields just the lists of nodes that are well formed and in which no more than
`limit` sections nest, and it reads the canonical source of these back. -/
theorem exists_parse_iff_wellFormed (limit : Nat) (nodes : List Node) :
    ((∃ source, parse limit source = .ok nodes) ↔
      AllWellFormed limit nodes ∧ heightOf nodes ≤ limit) ∧
    (parse limit (printed nodes) = .ok nodes ↔
      AllWellFormed limit nodes ∧ heightOf nodes ≤ limit) := by
  have himage : ∀ source, parse limit source = .ok nodes →
      AllWellFormed limit nodes ∧ heightOf nodes ≤ limit := by
    intro source h
    obtain ⟨ps, hcut, -, hforms⟩ := parse_eq_ok_iff_forms.1 h
    exact ⟨hforms.allWellFormed hcut le_rfl, hforms.heightOf_le⟩
  have hprinted : AllWellFormed limit nodes ∧ heightOf nodes ≤ limit →
      parse limit (printed nodes) = .ok nodes := by
    rintro ⟨h, hroom⟩
    exact parse_eq_ok_iff_forms.2 (exists_forms_printed h hroom)
  exact ⟨⟨fun ⟨source, h⟩ => himage source h, fun h => ⟨_, hprinted h⟩⟩, himage _, hprinted⟩

end Mustache.Template
