import Mathlib.Data.List.Induction
import Mathlib.Tactic.Common
import Mustache.Position

/-! Positions by a search and positions by a walk. `LineIndex.position` finds how many line
feeds lie in front of an offset by halving, and takes the column from the last of them. Main
result: inside a source, its end included, this is the position that is reached by reading
the source up to the offset one character at a time; so no two places share a position.
Behind the end the two part, since the reading stops there and the columns go on. -/

namespace Mustache

namespace Position

theorem line_walk (p : Position) (text : List Char) :
    (p.walk text).line = p.line + text.count '\n' := by
  induction text generalizing p with
  | nil => simp
  | cons c text ih =>
    rw [walk_cons, ih, advance]
    by_cases hc : c = '\n'
    · simp only [hc, if_true, List.count_cons_self]
      omega
    · simp [hc]

theorem column_walk_of_not_mem {text : List Char} (h : '\n' ∉ text) (p : Position) :
    (p.walk text).column = p.column + text.length := by
  induction text generalizing p with
  | nil => simp
  | cons c text ih =>
    rw [List.mem_cons, not_or] at h
    have hc : ¬ c = '\n' := fun hc => h.1 hc.symm
    rw [walk_cons, ih h.2, advance, if_neg hc, List.length_cons]
    push_cast
    omega

theorem eq_nil_of_walk_eq {p : Position} {text : List Char} (h : p.walk text = p) : text = [] := by
  have hline := line_walk p text
  rw [h] at hline
  have hfeed : '\n' ∉ text := List.count_eq_zero.1 (by omega)
  have hcolumn := column_walk_of_not_mem hfeed p
  rw [h] at hcolumn
  exact List.length_eq_zero_iff.1 (by omega)

theorem walk_take_injective {text : List Char} {i j : Nat} (hi : i ≤ text.length)
    (hj : j ≤ text.length) (p : Position) (h : p.walk (text.take i) = p.walk (text.take j)) :
    i = j := by
  wlog hle : i ≤ j generalizing i j
  · exact (this hj hi h.symm (by omega)).symm
  · have hsplit : text.take j = text.take i ++ (text.drop i).take (j - i) := by
      rw [← List.take_add]
      congr 1
      omega
    rw [hsplit, walk_append] at h
    have hnil := congrArg List.length (eq_nil_of_walk_eq h.symm)
    simp only [List.length_take, List.length_drop, List.length_nil] at hnil
    omega

end Position

namespace LineIndex

/-- The search finds the place that parts smaller entries from the others. -/
theorem lowerBound_eq {entries : Array Nat} {x : Int} {lo hi k : Nat} (hlo : lo ≤ k) (hhi : k ≤ hi)
    (hbelow : ∀ i < k, (entries.getD i 0 : Int) < x)
    (habove : ∀ i, k ≤ i → i < hi → x ≤ entries.getD i 0) :
    lowerBound entries x lo hi = k := by
  fun_induction lowerBound entries x lo hi with
  | case1 lo hi hlt mid hless ih =>
    -- the entry in the middle is smaller, so the place lies behind it
    have hmid : mid < k := by
      by_contra hge
      have := habove mid (by omega) (by omega)
      omega
    exact ih hmid hhi habove
  | case2 lo hi hlt mid hge ih =>
    have hmid : k ≤ mid := by
      by_contra hlt
      exact hge (hbelow mid (by omega))
    exact ih hlo hmid fun i hi hlt => habove i hi (by omega)
  | case3 lo hi hge => omega

/-- The search does not go behind the range. -/
theorem lowerBound_le (entries : Array Nat) (x : Int) {lo hi : Nat} (h : lo ≤ hi) :
    lowerBound entries x lo hi ≤ hi := by
  fun_induction lowerBound entries x lo hi with
  | case1 lo hi hlt mid hless ih => exact ih (by omega)
  | case2 lo hi hlt mid hge ih => exact Nat.le_trans (ih (by omega)) (by omega)
  | case3 lo hi hge => exact h

/-- The search in smaller entries and others behind them. -/
theorem lowerBound_append {front back : List Nat} {x : Int} (hfront : ∀ a ∈ front, (a : Int) < x)
    (hback : ∀ b ∈ back, x ≤ (b : Int)) :
    lowerBound (front ++ back).toArray x 0 (front ++ back).toArray.size = front.length := by
  simp only [List.size_toArray, List.length_append]
  apply lowerBound_eq (Nat.zero_le _) (Nat.le_add_right _ _)
  · intro i hi
    rw [Array.getD_eq_getD_getElem?, List.getElem?_toArray, List.getElem?_append_left hi,
      List.getElem?_eq_getElem hi]
    exact hfront _ (List.getElem_mem hi)
  · intro i hi hlt
    have hsub : i - front.length < back.length := by omega
    rw [Array.getD_eq_getD_getElem?, List.getElem?_toArray, List.getElem?_append_right hi,
      List.getElem?_eq_getElem hsub]
    exact hback _ (List.getElem_mem hsub)

def lineFeedsFrom (start : Nat) (text : List Char) : List Nat :=
  ((text.zipIdx start).filter fun entry => entry.1 = '\n').map fun entry => entry.2

theorem lineFeedsFrom_append (start : Nat) (front back : List Char) :
    lineFeedsFrom start (front ++ back) =
      lineFeedsFrom start front ++ lineFeedsFrom (start + front.length) back := by
  simp [lineFeedsFrom, List.zipIdx_append]

theorem lineFeedsFrom_cons (start : Nat) (c : Char) (text : List Char) :
    lineFeedsFrom start (c :: text) =
      if c = '\n' then start :: lineFeedsFrom (start + 1) text
      else lineFeedsFrom (start + 1) text := by
  by_cases hc : c = '\n' <;> simp [lineFeedsFrom, hc]

theorem length_lineFeedsFrom (start : Nat) (text : List Char) :
    (lineFeedsFrom start text).length = text.count '\n' := by
  induction text generalizing start with
  | nil => rfl
  | cons c text ih =>
    rw [lineFeedsFrom_cons]
    by_cases hc : c = '\n' <;> simp [hc, ih]

theorem mem_lineFeedsFrom {start x : Nat} {text : List Char} (h : x ∈ lineFeedsFrom start text) :
    start ≤ x ∧ x < start + text.length := by
  obtain ⟨⟨c, i⟩, hentry, rfl⟩ := List.mem_map.1 h
  have hzip := List.mem_zipIdx (List.mem_filter.1 hentry).1
  omega

def lastLineStart (text : List Char) : Nat :=
  ((lineFeedsFrom 0 text).getLast?.map (· + 1)).getD 0

theorem lastLineStart_concat (text : List Char) (c : Char) :
    lastLineStart (text ++ [c]) = if c = '\n' then text.length + 1 else lastLineStart text := by
  have hlast : lineFeedsFrom text.length [c] = if c = '\n' then [text.length] else [] :=
    lineFeedsFrom_cons text.length c []
  rw [lastLineStart, lineFeedsFrom_append, Nat.zero_add, hlast]
  by_cases hc : c = '\n' <;> simp [hc, lastLineStart]

theorem position_eq (source : List Char) (offset : Nat) :
    (ofSource source).position offset =
      ⟨(source.take offset).count '\n' + 1,
        offset - (lastLineStart (source.take offset) : Int) + 1⟩ := by
  have hfeeds : (ofSource source).lineFeeds = (lineFeedsFrom 0 (source.take offset) ++
      lineFeedsFrom (source.take offset).length (source.drop offset)).toArray := by
    have happend := lineFeedsFrom_append 0 (source.take offset) (source.drop offset)
    rw [List.take_append_drop, Nat.zero_add] at happend
    rw [← happend]
    rfl
  have hfront : ∀ a ∈ lineFeedsFrom 0 (source.take offset), (a : Int) < offset := by
    intro a ha
    obtain ⟨-, hlt⟩ := mem_lineFeedsFrom ha
    rw [List.length_take] at hlt
    omega
  have hback : ∀ b ∈ lineFeedsFrom (source.take offset).length (source.drop offset),
      (offset : Int) ≤ b := by
    intro b hb
    obtain ⟨hle, hlt⟩ := mem_lineFeedsFrom hb
    rw [List.length_take] at hle hlt
    rw [List.length_drop] at hlt
    omega
  have hfound := lowerBound_append hfront hback
  rw [← hfeeds, length_lineFeedsFrom] at hfound
  have hstart : (if (source.take offset).count '\n' = 0 then 0
      else (ofSource source).lineFeeds.getD ((source.take offset).count '\n' - 1) 0 + 1) =
        lastLineStart (source.take offset) := by
    rw [hfeeds, lastLineStart, ← length_lineFeedsFrom 0]
    generalize lineFeedsFrom 0 (source.take offset) = front
    split
    · rename_i hnil
      rw [List.length_eq_zero_iff.1 hnil]
      rfl
    · rename_i hne
      have hlt : front.length - 1 < front.length := by omega
      rw [Array.getD_eq_getD_getElem?, List.getElem?_toArray, List.getElem?_append_left hlt,
        List.getLast?_eq_getElem?, List.getElem?_eq_getElem hlt]
      rfl
  simp only [position, hfound, hstart]

theorem line_position (source : List Char) (offset : Nat) :
    ((ofSource source).position offset).line = (source.take offset).count '\n' + 1 := by
  rw [position_eq]

theorem walk_origin (text : List Char) :
    Position.origin.walk text =
      ⟨text.count '\n' + 1, text.length - (lastLineStart text : Int) + 1⟩ := by
  induction text using List.reverseRecOn with
  | nil => rfl
  | append_singleton text c ih =>
    rw [Position.walk_append, ih, Position.walk_cons, Position.walk_nil, Position.advance,
      lastLineStart_concat, List.count_append, List.length_append]
    by_cases hc : c = '\n'
    · subst hc
      simp
    · simp only [hc, if_false, List.length_singleton, List.count_singleton, beq_iff_eq,
        Nat.add_zero, Position.mk.injEq, true_and]
      push_cast
      omega

/-- The search agrees with the walk. -/
theorem position_eq_walk {source : List Char} {offset : Nat} (h : offset ≤ source.length) :
    (ofSource source).position offset = Position.origin.walk (source.take offset) := by
  rw [position_eq, walk_origin, List.length_take, Nat.min_eq_left h]

/-- Behind the end, where the walk has stopped, the search goes on to count columns. -/
theorem position_of_length_le {source : List Char} {offset : Nat} (h : source.length ≤ offset) :
    (ofSource source).position offset =
      ⟨(Position.origin.walk source).line,
        (Position.origin.walk source).column + (offset - source.length : Nat)⟩ := by
  rw [position_eq, walk_origin, List.take_of_length_le h]
  simp only [Position.mk.injEq, true_and]
  omega

/-- The search finds the line that the walk comes to, and its column with as many columns
added as the offset lies behind the end; so inside the source, and nowhere else, the two
agree. -/
theorem position_eq_walk_add (source : List Char) (offset : Nat) :
    (ofSource source).position offset =
        ⟨(Position.origin.walk (source.take offset)).line,
          (Position.origin.walk (source.take offset)).column + (offset - source.length : Nat)⟩ ∧
      ((ofSource source).position offset = Position.origin.walk (source.take offset) ↔
        offset ≤ source.length) := by
  have hshifted : (ofSource source).position offset =
      ⟨(Position.origin.walk (source.take offset)).line,
        (Position.origin.walk (source.take offset)).column + (offset - source.length : Nat)⟩ := by
    obtain hin | hout := Nat.le_total offset source.length
    · rw [position_eq_walk hin, Nat.sub_eq_zero_of_le hin]
      simp
    · rw [position_of_length_le hout, List.take_of_length_le hout]
  refine ⟨hshifted, fun hwalk => ?_, position_eq_walk⟩
  have hcolumn := congrArg Position.column (hshifted.symm.trans hwalk)
  simp only at hcolumn
  omega

/-- Two characters behind the end of a line of three. -/
theorem position_behind_end :
    (ofSource "abc".toList).position 5 = ⟨1, 6⟩ ∧
      Position.origin.walk ("abc".toList.take 5) = ⟨1, 4⟩ := by
  have hend : Position.origin.walk "abc".toList = ⟨1, 4⟩ := rfl
  have hbehind := @position_of_length_le "abc".toList 5 (by decide)
  rw [hend] at hbehind
  exact ⟨hbehind, rfl⟩

end LineIndex

end Mustache
