/-! Places in a template source. A position counts lines and columns from one;
only a line feed ends a line. `Position.walk` reads a text one character at a
time; `LineIndex` answers the same question from the offsets of the line feeds,
found once, by a binary search. -/

namespace Mustache

/-- A line and a column. Columns are integers because an offset in front of the
source lies left of its first column. -/
structure Position where
  line : Nat
  column : Int
deriving DecidableEq, Repr

namespace Position

/-- The position of an error that is tied to no place in a source. -/
def unknown : Position := ⟨0, 0⟩

def origin : Position := ⟨1, 1⟩

/-- Where the character after `c` stands when `c` stands at `p`. -/
def advance (p : Position) (c : Char) : Position :=
  if c = '\n' then ⟨p.line + 1, 1⟩ else ⟨p.line, p.column + 1⟩

/-- The position reached from `p` by reading a text character by character. -/
def walk (p : Position) (text : List Char) : Position := text.foldl advance p

@[simp] theorem walk_nil (p : Position) : p.walk [] = p := rfl

@[simp] theorem walk_cons (p : Position) (c : Char) (text : List Char) :
    p.walk (c :: text) = (p.advance c).walk text := rfl

theorem walk_append (p : Position) (front back : List Char) :
    p.walk (front ++ back) = (p.walk front).walk back := List.foldl_append

def text (p : Position) : String := s!"{p.line}:{p.column}"

end Position

/-- The offsets of the line feeds of a source, in increasing order. -/
structure LineIndex where
  lineFeeds : Array Nat
deriving DecidableEq, Repr

namespace LineIndex

def ofSource (source : List Char) : LineIndex :=
  ⟨((source.zipIdx.filter fun entry => entry.1 = '\n').map fun entry => entry.2).toArray⟩

/-- The first place in `[lo, hi)` whose entry is at least `x`, or `hi`, in an
array that increases over that range. -/
def lowerBound (entries : Array Nat) (x : Int) (lo hi : Nat) : Nat :=
  if lo < hi then
    let mid := (lo + hi) / 2
    if (entries.getD mid 0 : Int) < x then lowerBound entries x (mid + 1) hi
    else lowerBound entries x lo mid
  else lo
termination_by hi - lo

/-- The position of an offset. Behind the end the columns of the last line go on. -/
def position (index : LineIndex) (offset : Int) : Position :=
  let before := lowerBound index.lineFeeds offset 0 index.lineFeeds.size
  let lineStart := if before = 0 then 0 else index.lineFeeds.getD (before - 1) 0 + 1
  ⟨before + 1, offset - lineStart + 1⟩

/-- The search goes on behind an entry only if that entry is smaller. -/
theorem lowerBound_eq_or_lt (entries : Array Nat) (x : Int) (lo hi : Nat) :
    lowerBound entries x lo hi = lo ∨
      (entries.getD (lowerBound entries x lo hi - 1) 0 : Int) < x := by
  fun_induction lowerBound entries x lo hi with
  | case1 lo hi _ mid hlt ih =>
    obtain ih | ih := ih
    · rw [ih]
      exact .inr hlt
    · exact .inr ih
  | case2 lo hi _ mid _ ih => exact ih
  | case3 => exact .inl rfl

theorem one_le_position (index : LineIndex) (offset : Nat) :
    1 ≤ (index.position offset).line ∧ 1 ≤ (index.position offset).column := by
  have hfound := lowerBound_eq_or_lt index.lineFeeds offset 0 index.lineFeeds.size
  simp only [position]
  split <;> omega

end LineIndex

end Mustache
