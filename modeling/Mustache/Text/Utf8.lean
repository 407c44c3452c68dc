/-! UTF-8. Reading takes one sequence at a time: either a character or the longest
ill-formed stretch that begins like one. A strict reader refuses such a stretch, a
lossy one puts U+FFFD in its place. -/

namespace Mustache.Text.Utf8

/-- What a lead byte announces: the number of continuation bytes, the bounds of the
first of them, and the bits that it contributes. -/
structure Lead where
  length : Nat
  low : Nat
  high : Nat
  bits : Nat
deriving DecidableEq, Repr

/-- Overlong forms, surrogates and numbers beyond U+10FFFF are excluded by the bounds
of the first continuation byte. -/
def lead? (b : Nat) : Option Lead :=
  if b < 0x80 then some ⟨0, 0, 0, b⟩
  else if 0xC2 ≤ b && b ≤ 0xDF then some ⟨1, 0x80, 0xBF, b - 0xC0⟩
  else if b == 0xE0 then some ⟨2, 0xA0, 0xBF, 0⟩
  else if b == 0xED then some ⟨2, 0x80, 0x9F, 13⟩
  else if 0xE1 ≤ b && b ≤ 0xEF then some ⟨2, 0x80, 0xBF, b - 0xE0⟩
  else if b == 0xF0 then some ⟨3, 0x90, 0xBF, 0⟩
  else if 0xF1 ≤ b && b ≤ 0xF3 then some ⟨3, 0x80, 0xBF, b - 0xF0⟩
  else if b == 0xF4 then some ⟨3, 0x80, 0x8F, 4⟩
  else none

/-- Reads the continuation bytes of a sequence: the character, or none if the sequence
breaks off, and the bytes behind what was read. -/
def continuation : Nat → Nat → Nat → Nat → List UInt8 → Option Char × List UInt8
  | 0, _, _, code, rest => (some (Char.ofNat code), rest)
  | _ + 1, _, _, _, [] => (none, [])
  | n + 1, low, high, code, b :: rest =>
    if low ≤ b.toNat && b.toNat ≤ high then
      continuation n 0x80 0xBF (64 * code + (b.toNat - 0x80)) rest
    else (none, b :: rest)

theorem continuation_length_le (n low high code : Nat) (bytes : List UInt8) :
    (continuation n low high code bytes).2.length ≤ bytes.length := by
  fun_induction continuation n low high code bytes with
  | case1 | case2 | case4 => exact Nat.le_refl _
  | case3 _ _ _ _ _ _ _ ih => exact Nat.le_succ_of_le ih

/-- Reads one sequence. -/
def next (b : UInt8) (rest : List UInt8) : Option Char × List UInt8 :=
  match lead? b.toNat with
  | some l => continuation l.length l.low l.high l.bits rest
  | none => (none, rest)

theorem next_length_le (b : UInt8) (rest : List UInt8) :
    (next b rest).2.length ≤ rest.length := by
  unfold next
  split
  · exact continuation_length_le ..
  · simp

/-- The characters of a byte string in reverse, behind `done`; `repair` says what
stands for an ill-formed stretch. -/
def read (repair : Option Char) (done : List Char) : List UInt8 → Option (List Char)
  | [] => some done
  | b :: rest =>
    match h : next b rest with
    | (found, behind) =>
      have hle : behind.length ≤ rest.length := by
        have := next_length_le b rest
        rwa [h] at this
      match found, repair with
      | some c, _ => read repair (c :: done) behind
      | none, some c => read repair (c :: done) behind
      | none, none => none
termination_by bytes => bytes.length
decreasing_by all_goals exact Nat.lt_succ_of_le hle

/-- The text of a well-formed byte string. -/
def decode? (bytes : List UInt8) : Option (List Char) := (read none [] bytes).map List.reverse

def decodeLossy (bytes : List UInt8) : List Char :=
  ((read (some '\ufffd') [] bytes).getD []).reverse

/-- The number of bytes of a character. -/
def size (c : Char) : Nat := c.utf8Size

def encode (s : String) : List UInt8 := s.toUTF8.toList

end Mustache.Text.Utf8
