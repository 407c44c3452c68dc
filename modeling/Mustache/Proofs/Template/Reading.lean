import Mustache.Proofs.Template.Turn

/-! Reading with nothing taken for granted. A reading asks a source for one character after
the other, by offsets, and breaks off where the source has none. A loop in it goes on from
turn to turn for as long as its turns do not leave it; a reading that takes more turns than it
is allowed has not ended. Main result: the reader of a window ends within as many turns as the
window has characters and one more, asks only for characters of the window, and comes to what
compiling the window comes to. -/

namespace Mustache.Template

/-- Why a reading breaks off: the source is refused, or it has no character where one is
asked for. -/
inductive BreakOff
  | refused (e : SyntaxError)
  | noCharacter (offset : Nat)

/-- A reading keeps the offsets at which it has looked, the last one first. It may break off,
and it may not have ended yet. -/
abbrev Reading := ExceptT BreakOff (StateT (List Nat) Option)

namespace Reading

variable {α β : Type}

/-- The character at an offset. -/
def look (source : List Char) (i : Nat) : Reading Char := do
  modify fun looked => i :: looked
  match source[i]? with
  | some c => return c
  | none => throw (.noCharacter i)

def refuse (defect : Defect) (offset : Nat) : Reading α :=
  throw (.refused ⟨defect, offset⟩)

/-- A reading that has not ended. -/
def unended : Reading α := ExceptT.mk fun _ => none

section Readers

variable (source : List Char) (stop : Nat)

/-- The first offset from `i` on at which a character stands that `q` accepts. -/
def findChar (q : Char → Bool) (i : Nat) : Reading (Option Nat) := do
  if i < stop then
    if q (← look source i) then return some i else findChar q (i + 1)
  else return none
termination_by stop - i

/-- The first offset from `i` on at which two close braces stand. -/
def findClosing (i : Nat) : Reading (Option Nat) := do
  if i + 1 < stop then
    if (← look source i) = '}' then
      if (← look source (i + 1)) = '}' then return some i else findClosing (i + 1)
    else findClosing (i + 1)
  else return none
termination_by stop - i

def startsWith : List Char → Nat → Reading Bool
  | [], _ => return true
  | c :: text, i => do
    if i < stop then
      if (← look source i) = c then startsWith text (i + 1) else return false
    else return false

def skipLineEnd (i : Nat) : Reading Nat := do
  if ← startsWith source stop ['\r', '\n'] i then return i + 2
  else if ← startsWith source stop ['\n'] i then return i + 1
  else return i

/-- The offset behind a tag of some kind that ends at offset `i`. -/
def behindTag (sigil : Sigil) (i : Nat) : Reading Nat :=
  if sigil.takesLineEnd then skipLineEnd source stop i else return i

def closeBraces : Nat → Nat → Reading Nat
  | 0, i => return i
  | closing + 1, i => do
    if i < stop then
      if (← look source i) = '}' then closeBraces closing (i + 1) else refuse .expectedClose i
    else refuse .expectedClose i

/-- The identifier at an offset and the offset behind its close braces. -/
def scanTag (closing i : Nat) : Reading (String × Nat) := do
  match ← findChar source stop (fun c => c == '}' || c == '\n') i with
  | none => refuse .expectedClose stop
  | some j =>
    if (← look source j) = '\n' then refuse .lineFeedInTag j
    else
      let behind ← closeBraces source stop closing j
      return (String.ofList (trimSpaces ((source.take j).drop i)), behind)

/-- The next pair of open braces and the character behind it. -/
def nextOpening (i : Nat) : Reading (Option Window.Mark) := do
  match ← findChar source stop (· == '{') i with
  | none => return none
  | some j =>
    if j + 1 < stop then
      if (← look source (j + 1)) = '{' then
        if j + 2 < stop then
          match Sigil.ofChar? (← look source (j + 2)) with
          | some sigil => return some ⟨j, sigil, j + 3⟩
          | none => return some ⟨j, .field, j + 2⟩
        else refuse .endOfSource stop
      else refuse .expectedOpen j
    else refuse .expectedOpen j

/-- The identifier of a tag and the offset behind it. -/
def finish (m : Window.Mark) : Reading (String × Nat) :=
  match m.sigil with
  | .comment => do
    match ← findClosing source stop m.rest with
    | none => refuse .expectedClose stop
    | some j => return ("", j + 2)
  | _ => scanTag source stop 2 m.rest

/-- One turn in search of the end of a section. -/
def searchTurn (name : String) (pending i : Nat) : Reading SearchTurn := do
  match ← nextOpening source stop i with
  | none => refuse (.expectedEnd name) stop
  | some m =>
    let (label, behind) ← finish source stop m
    match pendingAfter name pending m.sigil label with
    | none => return .found m.offset behind
    | some pending => return .goOn pending behind

/-- The close tag of a section: its offset and the offset behind it. The search may take a
number of turns. -/
def sectionEnd (name : String) : Nat → Nat → Nat → Reading (Nat × Nat)
  | 0, _, _ => unended
  | turns + 1, pending, i => do
    match ← searchTurn source stop name pending i with
    | .found close behind => return (close, behind)
    | .goOn pending i => sectionEnd name turns pending i

/-- One turn of compiling behind the nodes `nodes`, the last of which comes first. A search in
it for the end of a section may take a number of turns. -/
def buildTurn (limit turns depth : Nat) (nodes : List Node) (i : Nat) :
    Reading BuildTurn := do
  match ← nextOpening source stop i with
  | none => return .done (Node.consText ((source.take stop).drop i) nodes).reverse
  | some m =>
    let nodes := Node.consText ((source.take m.offset).drop i) nodes
    match m.sigil with
    | .close => refuse .strayEnd m.offset
    | .block sense =>
      if limit ≤ depth then refuse (.nestingTooDeep limit) m.offset
      else
        let (name, behind) ← finish source stop m
        let body ← skipLineEnd source stop behind
        let (close, behind) ← sectionEnd source stop name turns 0 body
        return .enter nodes sense name body close behind
    | sigil =>
      let (label, behind) ← finish source stop m
      let cursor ← behindTag source stop sigil behind
      return .goOn (((sigil.alone? label).getD []).reverse ++ nodes) cursor

end Readers

/-- The nodes from an offset on, behind the nodes `nodes`. Each loop may take a number of
turns. -/
def build (limit : Nat) (source : List Char) :
    Nat → Nat → Nat → List Node → Nat → Reading (List Node)
  | 0, _, _, _, _ => unended
  | turns + 1, stop, depth, nodes, i => do
    match ← buildTurn source stop limit (turns + 1) depth nodes i with
    | .done nodes => return nodes
    | .goOn nodes i => build limit source turns stop depth nodes i
    | .enter nodes sense name body close behind =>
      let children ← build limit source turns close (depth + 1) [] body
      let text := String.ofList ((source.take close).drop body)
      let i ← skipLineEnd source stop behind
      build limit source turns stop depth (.block sense name text children :: nodes) i

/-! ### What a reading comes to -/

/-- The reading ends, has looked at offsets from `lo` on in front of `hi` only, and comes to
`r`: it does not break off for want of a character. -/
def ComesTo (lo hi : Nat) (x : Reading α) (r : Except SyntaxError α) : Prop :=
  ∀ looked, ∃ more, (∀ i ∈ more, lo ≤ i ∧ i < hi) ∧
    x.run.run looked = some (r.mapError .refused, more ++ looked)

variable {lo hi lo' hi' : Nat} {x : Reading α} {f : α → Reading β} {a : α} {e : SyntaxError}
  {r : Except SyntaxError α}

theorem comesTo_pure (a : α) : ComesTo lo hi (pure a) (.ok a) :=
  fun _ => ⟨[], by simp, rfl⟩

theorem comesTo_refuse (defect : Defect) (offset : Nat) :
    ComesTo lo hi (refuse defect offset : Reading α) (.error ⟨defect, offset⟩) :=
  fun _ => ⟨[], by simp, rfl⟩

theorem ComesTo.bind {r : Except SyntaxError β} (hx : ComesTo lo hi x (.ok a))
    (hf : ComesTo lo hi (f a) r) : ComesTo lo hi (x >>= f) r := by
  intro looked
  obtain ⟨more, hmore, hrun⟩ := hx looked
  obtain ⟨more', hmore', hrun'⟩ := hf (more ++ looked)
  refine ⟨more' ++ more, fun i hi => ?_, ?_⟩
  · obtain hi | hi := List.mem_append.1 hi
    · exact hmore' i hi
    · exact hmore i hi
  · rw [ExceptT.run_bind, StateT.run_bind, hrun, List.append_assoc, ← hrun']
    rfl

theorem ComesTo.bind_error (hx : ComesTo lo hi x (.error e)) :
    ComesTo lo hi (x >>= f) (.error e) := by
  intro looked
  obtain ⟨more, hmore, hrun⟩ := hx looked
  refine ⟨more, hmore, ?_⟩
  rw [ExceptT.run_bind, StateT.run_bind, hrun]
  rfl

/-- What comes after a reading is told by what the reading comes to. -/
theorem ComesTo.andThen {r' : Except SyntaxError β} (hx : ComesTo lo hi x r)
    (herror : ∀ e, r = .error e → r' = .error e)
    (hok : ∀ a, r = .ok a → ComesTo lo hi (f a) r') : ComesTo lo hi (x >>= f) r' := by
  cases r with
  | ok a => exact hx.bind (hok a rfl)
  | error e =>
    rw [herror e rfl]
    exact hx.bind_error

theorem ComesTo.mono (h : ComesTo lo hi x r) (hlo : lo' ≤ lo) (hhi : hi ≤ hi') :
    ComesTo lo' hi' x r := by
  intro looked
  obtain ⟨more, hmore, hrun⟩ := h looked
  refine ⟨more, fun i hi => ?_, hrun⟩
  obtain ⟨hfrom, hto⟩ := hmore i hi
  exact ⟨hlo.trans hfrom, hto.trans_le hhi⟩

theorem comesTo_look {source : List Char} {i : Nat} {c : Char} (hlo : lo ≤ i) (hhi : i < hi)
    (h : source[i]? = some c) : ComesTo lo hi (look source i) (.ok c) := by
  intro looked
  refine ⟨[i], by simpa using ⟨hlo, hhi⟩, ?_⟩
  unfold look
  rw [h]
  rfl

/-! ### The readers of a window -/

section Window

variable {w : Window} {i : Nat}

/-- In front of the end of a window there is a character everywhere. -/
theorem exists_look (hlo : lo ≤ i) (hi : i < w.stop) :
    ∃ c, w.char? i = some c ∧ ComesTo lo w.stop (look w.source i) (.ok c) := by
  have hlt : i < w.source.length := hi.trans_le w.stop_le
  have hchar : w.source[i]? = some w.source[i] := List.getElem?_eq_getElem hlt
  exact ⟨w.source[i], by rw [Window.char?, if_pos hi, hchar], comesTo_look hlo hi hchar⟩

theorem findChar_comesTo (q : Char → Bool) (hlo : lo ≤ i) :
    ComesTo lo w.stop (findChar w.source w.stop q i) (.ok (w.findChar q i)) := by
  unfold Window.findChar
  fun_induction Window.find w (fun j => (w.char? j).any q) i with
  | case1 i hlt hp =>
    obtain ⟨c, hc, hlook⟩ := exists_look hlo hlt
    rw [hc, Option.any_some] at hp
    rw [findChar, if_pos hlt]
    refine hlook.bind ?_
    rw [if_pos hp]
    exact comesTo_pure _
  | case2 i hlt hp ih =>
    obtain ⟨c, hc, hlook⟩ := exists_look hlo hlt
    rw [hc, Option.any_some] at hp
    rw [findChar, if_pos hlt]
    refine hlook.bind ?_
    rw [if_neg hp]
    exact ih (Nat.le_succ_of_le hlo)
  | case3 i hge =>
    rw [findChar, if_neg hge]
    exact comesTo_pure _

theorem findClosing_comesTo (hlo : lo ≤ i) :
    ComesTo lo w.stop (findClosing w.source w.stop i)
      (.ok (w.find (fun j => w.char? j = some '}' ∧ w.char? (j + 1) = some '}') i)) := by
  fun_induction Window.find w (fun j => w.char? j = some '}' ∧ w.char? (j + 1) = some '}') i with
  | case1 i hlt hp =>
    obtain ⟨hfirst, hsecond⟩ := of_decide_eq_true hp
    have hnext : i + 1 < w.stop := Window.lt_stop_of_char? hsecond
    obtain ⟨c, hc, hlook⟩ := exists_look hlo hlt
    obtain ⟨d, hd, hlook'⟩ := exists_look (Nat.le_succ_of_le hlo) hnext
    obtain rfl := Option.some_inj.1 (hc.symm.trans hfirst)
    obtain rfl := Option.some_inj.1 (hd.symm.trans hsecond)
    rw [findClosing, if_pos hnext]
    exact hlook.bind (hlook'.bind (comesTo_pure _))
  | case2 i hlt hp ih =>
    have hrest := ih (Nat.le_succ_of_le hlo)
    rw [findClosing]
    split
    · rename_i hnext
      obtain ⟨c, hc, hlook⟩ := exists_look hlo hlt
      obtain ⟨d, hd, hlook'⟩ := exists_look (Nat.le_succ_of_le hlo) hnext
      refine hlook.bind ?_
      split
      · rename_i hbrace
        have hother : d ≠ '}' := by
          rintro rfl
          exact hp (decide_eq_true ⟨hbrace ▸ hc, hd⟩)
        exact hlook'.bind (by rw [if_neg hother]; exact hrest)
      · exact hrest
    · rename_i hlast
      rw [Window.find, if_neg hlast]
      exact comesTo_pure _
  | case3 i hge =>
    rw [findClosing, if_neg (by omega)]
    exact comesTo_pure _

theorem startsWith_comesTo (text : List Char) (hlo : lo ≤ i) :
    ComesTo lo w.stop (startsWith w.source w.stop text i) (.ok (w.holds text i)) := by
  induction text generalizing i with
  | nil => exact comesTo_pure _
  | cons c text ih =>
    rw [startsWith, Window.holds]
    split
    · rename_i hlt
      obtain ⟨d, hd, hlook⟩ := exists_look hlo hlt
      refine hlook.bind ?_
      rw [hd]
      by_cases hdc : d = c
      · rw [if_pos hdc, hdc, decide_eq_true rfl, Bool.true_and]
        exact ih (Nat.le_succ_of_le hlo)
      · rw [if_neg hdc, decide_eq_false (by simpa using hdc), Bool.false_and]
        exact comesTo_pure _
    · rename_i hge
      rw [Window.char?, if_neg hge]
      exact comesTo_pure _

theorem skipLineEnd_comesTo (hlo : lo ≤ i) :
    ComesTo lo w.stop (skipLineEnd w.source w.stop i) (.ok (w.skipLineEnd i)) := by
  have hpair : ComesTo lo w.stop (startsWith w.source w.stop ['\r', '\n'] i)
      (.ok (decide (w.char? i = some '\r' ∧ w.char? (i + 1) = some '\n'))) := by
    simpa [Window.holds] using @startsWith_comesTo lo w i ['\r', '\n'] hlo
  have hfeed : ComesTo lo w.stop (startsWith w.source w.stop ['\n'] i)
      (.ok (decide (w.char? i = some '\n'))) := by
    simpa [Window.holds] using @startsWith_comesTo lo w i ['\n'] hlo
  unfold skipLineEnd Window.skipLineEnd
  refine hpair.bind ?_
  split
  · rename_i hp
    rw [if_pos (of_decide_eq_true hp)]
    exact comesTo_pure _
  · rename_i hp
    rw [if_neg fun h => hp (decide_eq_true h)]
    refine hfeed.bind ?_
    split
    · rename_i hf
      rw [if_pos (of_decide_eq_true hf)]
      exact comesTo_pure _
    · rename_i hf
      rw [if_neg fun h => hf (decide_eq_true h)]
      exact comesTo_pure _

theorem closeBraces_comesTo (closing : Nat) (hlo : lo ≤ i) :
    ComesTo lo w.stop (closeBraces w.source w.stop closing i) (w.closeBraces closing i) := by
  induction closing generalizing i with
  | zero => exact comesTo_pure _
  | succ closing ih =>
    rw [closeBraces, Window.closeBraces]
    split
    · rename_i hlt
      obtain ⟨c, hc, hlook⟩ := exists_look hlo hlt
      refine hlook.bind ?_
      rw [hc]
      by_cases hbrace : c = '}'
      · rw [if_pos hbrace, if_pos (congrArg some hbrace)]
        exact ih (Nat.le_succ_of_le hlo)
      · rw [if_neg hbrace, if_neg (by simpa using hbrace)]
        exact comesTo_refuse _ _
    · rename_i hge
      rw [Window.char?, if_neg hge, if_neg (by simp)]
      exact comesTo_refuse _ _

-- The end of a window stands inside its source; with an end behind it the reader breaks off.
example : (closeBraces ['}'] 2 2 0).run.run [] = some (.error (.noCharacter 1), [1, 0]) := rfl

theorem scanTag_comesTo (closing : Nat) (hlo : lo ≤ i) :
    ComesTo lo w.stop (scanTag w.source w.stop closing i) (w.scanTag closing i) := by
  unfold scanTag Window.scanTag
  refine (findChar_comesTo _ hlo).bind ?_
  cases hfind : w.findChar (fun c => c == '}' || c == '\n') i with
  | none => exact comesTo_refuse _ _
  | some j =>
    obtain ⟨hle, hlt, -⟩ := Window.find_eq_some hfind
    obtain ⟨c, hc, hlook⟩ := exists_look (hlo.trans hle) hlt
    refine hlook.bind ?_
    simp only [hc]
    by_cases hfeed : c = '\n'
    · rw [if_pos hfeed, if_pos (congrArg some hfeed)]
      exact comesTo_refuse _ _
    · rw [if_neg hfeed, if_neg (by simpa using hfeed)]
      refine (closeBraces_comesTo closing (hlo.trans hle)).andThen (fun e he => ?_)
        fun behind hbehind => ?_
      · rw [he]
        rfl
      · rw [hbehind]
        exact comesTo_pure _

theorem nextOpening_comesTo (hlo : lo ≤ i) :
    ComesTo lo w.stop (nextOpening w.source w.stop i) (w.nextOpening i) := by
  unfold nextOpening Window.nextOpening
  refine (findChar_comesTo _ hlo).bind ?_
  cases hfind : w.findChar (· == '{') i with
  | none => exact comesTo_pure _
  | some j =>
    obtain ⟨hle, -, -⟩ := Window.find_eq_some hfind
    simp only
    split
    · rename_i hsecond
      obtain ⟨c, hc, hlook⟩ := exists_look (show lo ≤ j + 1 by omega) hsecond
      refine hlook.bind ?_
      rw [hc]
      by_cases hbrace : c = '{'
      · rw [if_pos hbrace, if_pos (congrArg some hbrace)]
        split
        · rename_i hthird
          obtain ⟨d, hd, hlook'⟩ := exists_look (show lo ≤ j + 2 by omega) hthird
          refine hlook'.bind ?_
          simp only [hd]
          cases Sigil.ofChar? d <;> exact comesTo_pure _
        · rename_i hlast
          simp only [Window.char?, if_neg hlast]
          exact comesTo_refuse _ _
      · rw [if_neg hbrace, if_neg (by simpa using hbrace)]
        exact comesTo_refuse _ _
    · rename_i hlast
      rw [Window.char?, if_neg hlast, if_neg (by simp)]
      exact comesTo_refuse _ _

theorem finish_comesTo {m : Window.Mark} (hlo : lo ≤ m.rest) :
    ComesTo lo w.stop (finish w.source w.stop m) (w.finish m) := by
  unfold finish Window.finish
  cases m.sigil with
  | comment =>
    simp only [Window.skipComment]
    refine (findClosing_comesTo hlo).bind ?_
    cases w.find (fun j => w.char? j = some '}' ∧ w.char? (j + 1) = some '}') m.rest with
    | none => exact comesTo_refuse _ _
    | some j => exact comesTo_pure _
  | field | block | close | inclusion => exact scanTag_comesTo 2 hlo

theorem searchTurn_comesTo (name : String) (pending : Nat) (hlo : lo ≤ i) :
    ComesTo lo w.stop (searchTurn w.source w.stop name pending i)
      (w.searchTurn name pending i) := by
  unfold searchTurn Window.searchTurn
  refine (nextOpening_comesTo hlo).andThen (fun e hm => by rw [hm]) fun m? hm => ?_
  rw [hm]
  cases m? with
  | none => exact comesTo_refuse _ _
  | some m =>
    have hbounds := Window.nextOpening_bounds hm
    refine (finish_comesTo (by omega)).andThen (fun e hf => by simp only [hf]) fun read hf => ?_
    simp only [hf]
    cases pendingAfter name pending m.sigil read.1 <;> exact comesTo_pure _

/-- The search for the end of a section ends, since each turn moves it on. -/
theorem sectionEnd_comesTo (name : String) {turns : Nat} (pending : Nat) (hlo : lo ≤ i)
    (hturns : w.stop - i < turns) :
    ComesTo lo w.stop (sectionEnd w.source w.stop name turns pending i)
      (w.sectionEnd name pending i) := by
  induction turns generalizing i pending with
  | zero => exact absurd hturns (Nat.not_lt_zero _)
  | succ turns ih =>
    rw [sectionEnd, Window.sectionEnd_eq_turn]
    refine (searchTurn_comesTo name pending hlo).andThen (fun e ht => by rw [ht])
      fun turn ht => ?_
    have hinside := Window.searchTurn_inside ht
    rw [ht]
    cases turn with
    | found close behind => exact comesTo_pure _
    | goOn pending' j =>
      obtain ⟨hlt, hle⟩ := hinside
      exact ih pending' (hlo.trans hlt.le) (by omega)

theorem behindTag_comesTo (sigil : Sigil) (hlo : lo ≤ i) :
    ComesTo lo w.stop (behindTag w.source w.stop sigil i) (.ok (w.behindTag sigil i)) := by
  unfold behindTag Window.behindTag
  split
  · exact skipLineEnd_comesTo hlo
  · exact comesTo_pure _

theorem buildTurn_comesTo (limit depth : Nat) (nodes : List Node) {turns : Nat} (hlo : lo ≤ i)
    (hturns : w.stop - i < turns) :
    ComesTo lo w.stop (buildTurn w.source w.stop limit turns depth nodes i)
      (w.buildTurn limit depth nodes i) := by
  unfold buildTurn Window.buildTurn
  refine (nextOpening_comesTo hlo).andThen (fun e hm => by rw [hm]) fun m? hm => ?_
  rw [hm]
  cases m? with
  | none => exact comesTo_pure _
  | some m =>
    have hbounds := Window.nextOpening_bounds hm
    have hfinish : ComesTo lo w.stop (finish w.source w.stop m) (w.finish m) :=
      finish_comesTo (by omega)
    simp only
    cases hsigil : m.sigil with
    | close => exact comesTo_refuse _ _
    | block sense =>
      simp only
      split
      · exact comesTo_refuse _ _
      · refine hfinish.andThen (fun e hf => by simp only [hf]) fun read hf => ?_
        obtain ⟨name, behind⟩ := read
        have htag := Window.tag_bounds hm hf
        have hbody := Window.skipLineEnd_bounds htag.2.2
        simp only [hf]
        refine (skipLineEnd_comesTo (by omega)).bind ?_
        refine (sectionEnd_comesTo name 0 (by omega) (by omega)).andThen
          (fun e hend => by rw [hend]) fun close hend => ?_
        rw [hend]
        exact comesTo_pure _
    | field | inclusion | comment =>
      refine hfinish.andThen (fun e hf => by simp only [hf]) fun read hf => ?_
      obtain ⟨label, behind⟩ := read
      have htag := Window.tag_bounds hm hf
      simp only [hf]
      exact (behindTag_comesTo _ (by omega)).bind (comesTo_pure _)

/-- Compiling ends, since each turn moves it on, and each body ends in front of where the
window does. -/
theorem build_comesTo (limit depth : Nat) (nodes : List Node) (w : Window) {turns i : Nat}
    (hi : i ≤ w.stop) (hturns : w.stop - i < turns) :
    ComesTo i w.stop (build limit w.source turns w.stop depth nodes i)
      (w.buildOnto limit depth nodes i) := by
  induction turns generalizing w i depth nodes with
  | zero => exact absurd hturns (Nat.not_lt_zero _)
  | succ turns ih =>
    rw [build, Window.buildOnto_eq_turn]
    refine (buildTurn_comesTo limit depth nodes le_rfl hturns).andThen (fun e ht => by rw [ht])
      fun turn ht => ?_
    have hinside := Window.buildTurn_inside ht
    rw [ht]
    cases turn with
    | done nodes => exact comesTo_pure _
    | goOn nodes j =>
      obtain ⟨hlt, hle⟩ := hinside
      exact (ih depth nodes w hle (by omega)).mono hlt.le le_rfl
    | enter nodes sense name body close behind =>
      obtain ⟨-, hbody, hclose, hbehind, hstop⟩ := hinside
      have hupTo : (w.upTo close).stop = close := Nat.min_eq_left (hbehind.le.trans hstop)
      have hchildren := ih (depth + 1) [] (w.upTo close) (hupTo.symm ▸ hclose) (by omega)
      rw [hupTo] at hchildren
      refine (hchildren.mono hbody.le (hbehind.le.trans hstop)).andThen
        (fun e he => by simp only [he]) fun children hok => ?_
      have hskip := Window.skipLineEnd_bounds hstop
      simp only [hok]
      refine (skipLineEnd_comesTo (by omega)).bind ?_
      exact (ih depth _ w hskip.2 (by omega)).mono (by omega) le_rfl

end Window

end Reading

end Mustache.Template
