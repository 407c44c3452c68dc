import Mathlib
import Mustache.Proofs.Config.Variables

/-! Which texts a variable keeps as they are. What a text is taken for is told without its
reader: a truth value is a word in letters of either case; an integer has digits in groups, a
sign and blanks around it; and a list stands in brackets. Main result: a text that is none of
these is its own value, and the value of one that is any of them is never a text. -/

namespace Mustache

/-! ### Words in letters of either case -/

namespace Text

def truthLetters : List Char := ['a', 'e', 'f', 'l', 'r', 's', 't', 'u']

variable {c d : Char} {word : List Char}

/-- A property of the members of a list that a test of all of them decides. -/
theorem forall_mem_of_all {α : Type} {p : α → Prop} [DecidablePred p] {xs : List α}
    (h : xs.all fun x => decide (p x)) : ∀ x ∈ xs, p x := by
  simpa only [List.all_eq_true, decide_eq_true_eq] using h

theorem toLower_truthLetter : ∀ d ∈ truthLetters, d.toLower = d :=
  forall_mem_of_all (by decide)

theorem toNat_toUpper_truthLetter : ∀ d ∈ truthLetters, d.toUpper.toNat + 32 = d.toNat :=
  forall_mem_of_all (by decide)

theorem lowercase?_truthLetter : ∀ d ∈ truthLetters,
    lowercase? d = none ∧ lowercase? d.toUpper = some d :=
  forall_mem_of_all (by decide +kernel)

/-- What is the character that a run makes `d`, if it makes one `d`. -/
def origin (d : Char) (distance : Int) : Nat := ((d.toNat : Int) - distance).toNat

/-- Of all runs, that of the capitals alone has such letters as lower case forms. -/
theorem distance_of_mem_lowercaseRuns : ∀ run ∈ lowercaseRuns, ∀ d ∈ truthLetters,
    run.1 ≤ origin d run.2.2.2 → origin d run.2.2.2 ≤ run.2.1 → run.2.2.2 = 32 := by
  have h : lowercaseRuns.all fun run => truthLetters.all fun d => decide
      (run.1 ≤ origin d run.2.2.2 → origin d run.2.2.2 ≤ run.2.1 → run.2.2.2 = 32) := by
    decide +kernel
  simpa only [List.all_eq_true, decide_eq_true_eq] using h

theorem eq_toUpper_of_lowercase? (h : lowercase? c = some d) (hd : d ∈ truthLetters) :
    c = d.toUpper := by
  obtain ⟨⟨first, last, step, distance⟩, hfind, hc⟩ := Option.map_eq_some_iff.mp h
  have hrange := List.find?_some hfind
  simp only [Bool.and_eq_true, decide_eq_true_eq] at hrange
  have hupper := toNat_toUpper_truthLetter d hd
  have hnat : (c.toNat + distance).toNat = d.toNat := by
    have hd' := congrArg Char.toNat hc
    rw [Char.toNat_ofNat] at hd'
    split at hd' <;> omega
  have hback : origin d distance = c.toNat := by
    unfold origin
    omega
  have hdistance : distance = 32 :=
    distance_of_mem_lowercaseRuns _ (List.mem_of_find?_eq_some hfind) d hd
      (hback ▸ hrange.1.1) (hback ▸ hrange.1.2)
  apply Char.toNat_inj.mp
  omega

theorem eq_of_toLower_eq (h : c.toLower = d) : c = d ∨ c = d.toUpper := by
  subst h
  by_cases hc : c.isUpper
  · rw [Char.toUpper_toLower_eq_toUpper,
      Char.toUpper_eq_of_not_isLower (Char.not_isLower_of_isUpper hc)]
    exact .inr rfl
  · exact .inl (Char.toLower_eq_of_not_isUpper hc).symm

theorem getD_lowercase?_eq_iff (hd : d ∈ truthLetters) :
    (lowercase? c).getD c = d ↔ c.toLower = d := by
  obtain ⟨hself, hcapital⟩ := lowercase?_truthLetter d hd
  constructor
  · intro h
    rcases hc : lowercase? c with _ | e <;> rw [hc] at h <;> cases h
    · exact toLower_truthLetter c hd
    · rw [eq_toUpper_of_lowercase? hc hd, Char.toLower_toUpper_eq_toLower]
      exact toLower_truthLetter e hd
  · intro h
    rcases eq_of_toLower_eq h with rfl | rfl
    · rw [hself]
      rfl
    · rw [hcapital]
      rfl

/-- A letter of a text in lower case is that of the text, but for its case. -/
theorem lowercaseFrom_cons_eq_cons_iff {inWord : Bool} {rest : List Char} (hd : d ∈ truthLetters) :
    lowercaseFrom inWord (c :: rest) = d :: word ↔
      c.toLower = d ∧
        lowercaseFrom (if isWordMark c then inWord else isCased c) rest = word := by
  have hother {e : Char} (he : e ∉ truthLetters) : e ≠ d := fun h => he (h ▸ hd)
  rw [lowercaseFrom]
  generalize (if isWordMark c then inWord else isCased c) = next
  by_cases hsigma : c = '\u03a3'
  · subst hsigma
    have hupper : ('\u03a3').toLower ∉ truthLetters := by decide
    have hfinal : '\u03c2' ∉ truthLetters := by decide
    have hinner : '\u03c3' ∉ truthLetters := by decide
    rw [if_pos (by simp)]
    dsimp only
    split_ifs
    · simp only [List.cons.injEq, hother hupper, hother hfinal, false_and]
    · simp only [List.cons.injEq, hother hupper, hother hinner, false_and]
  by_cases hdotted : c = '\u0130'
  · subst hdotted
    have hupper : ('\u0130').toLower ∉ truthLetters := by decide
    have hi : 'i' ∉ truthLetters := by decide
    rw [if_neg (by simp), if_pos (by simp), List.cons.injEq]
    simp only [hother hupper, hother hi, false_and]
  · rw [if_neg (by simpa using hsigma), if_neg (by simpa using hdotted), List.cons.injEq,
      getD_lowercase?_eq_iff hd]

theorem lowercaseFrom_ne_nil (inWord : Bool) (c : Char) (rest : List Char) :
    lowercaseFrom inWord (c :: rest) ≠ [] := by
  rw [lowercaseFrom]
  split_ifs <;> simp

theorem lowercaseFrom_eq_iff (hw : ∀ d ∈ word, d ∈ truthLetters) (inWord : Bool)
    (text : List Char) : lowercaseFrom inWord text = word ↔ text.map Char.toLower = word := by
  induction text generalizing inWord word with
  | nil => simp [lowercaseFrom, eq_comm]
  | cons c rest ih =>
    cases word with
    | nil => simp [lowercaseFrom_ne_nil]
    | cons d word =>
      obtain ⟨hd, hword⟩ := List.forall_mem_cons.mp hw
      rw [lowercaseFrom_cons_eq_cons_iff hd, ih hword, List.map_cons, List.cons.injEq]

/-- A word of these letters comes of the same letters in either case. -/
theorem lowercase_eq_iff {s word : String} (hw : ∀ d ∈ word.toList, d ∈ truthLetters) :
    lowercase s = word ↔ s.toLower = word := by
  rw [← String.toList_inj, ← String.toList_inj, lowercase, String.toList_ofList, String.toLower,
    String.toList_map, lowercaseFrom_eq_iff hw]

end Text

/-! ### Integer literals -/

namespace Number

/-- Digits of any script in groups, with an underscore between one group and the next. -/
inductive DigitGroups : List Char → List Nat → Prop
  | last {c n} (h : Text.digitValue? c = some n) : DigitGroups [c] [n]
  | digit {c n rest digits} (h : Text.digitValue? c = some n) (hr : DigitGroups rest digits) :
      DigitGroups (c :: rest) (n :: digits)
  | group {c n rest digits} (h : Text.digitValue? c = some n) (hr : DigitGroups rest digits) :
      DigitGroups (c :: '_' :: rest) (n :: digits)

/-- An integer as it is written: blanks, a sign or none, digits that are not too many, blanks. -/
def IntegerLiteral (text : List Char) : Prop :=
  ∃ front sign groups back digits, text = front ++ sign ++ groups ++ back ∧
    (∀ c ∈ front, Text.isBlank c) ∧ (sign = [] ∨ sign = ['-'] ∨ sign = ['+']) ∧
    DigitGroups groups digits ∧ digits.length ≤ maxIntegerDigits ∧ ∀ c ∈ back, Text.isBlank c

/-- What may follow a digit: nothing, a new group, or the rest of the group. -/
def Continues (text : List Char) (digits : List Nat) : Prop :=
  text = [] ∧ digits = [] ∨ (∃ rest, text = '_' :: rest ∧ DigitGroups rest digits) ∨
    DigitGroups text digits

variable {text rest groups front core back : List Char} {digits : List Nat} {c : Char}

theorem digitValue?_underscore : Text.digitValue? '_' = none := by decide

theorem not_digitGroups_nil : ¬ DigitGroups [] digits := nofun

theorem digitGroups_cons_iff : DigitGroups (c :: rest) digits ↔
    ∃ n more, Text.digitValue? c = some n ∧ digits = n :: more ∧ Continues rest more := by
  constructor
  · intro h
    cases h with
    | last h => exact ⟨_, _, h, rfl, .inl ⟨rfl, rfl⟩⟩
    | digit h hr => exact ⟨_, _, h, rfl, .inr (.inr hr)⟩
    | group h hr => exact ⟨_, _, h, rfl, .inr (.inl ⟨_, rfl, hr⟩)⟩
  · rintro ⟨n, more, h, rfl, ⟨rfl, rfl⟩ | ⟨rest, rfl, hr⟩ | hr⟩
    · exact .last h
    · exact .group h hr
    · exact .digit h hr

theorem groupedDigits_cons_of_ne (h : c ≠ '_') (afterDigit : Bool) :
    groupedDigits Text.digitValue? afterDigit (c :: rest) = (Text.digitValue? c).bind fun n =>
      (groupedDigits Text.digitValue? true rest).map (n :: ·) := by
  rw [groupedDigits, if_neg (by simpa using h)]
  cases Text.digitValue? c <;> rfl

theorem groupedDigits_eq_some_iff (text : List Char) :
    (∀ digits, groupedDigits Text.digitValue? false text = some digits ↔
        DigitGroups text digits) ∧
      ∀ digits, groupedDigits Text.digitValue? true text = some digits ↔
        Continues text digits := by
  induction text with
  | nil => simp [groupedDigits, not_digitGroups_nil, Continues, eq_comm]
  | cons c rest ih =>
    obtain ⟨ihgroups, ihcontinues⟩ := ih
    by_cases hc : c = '_'
    · subst hc
      have hno (digits : List Nat) : ¬ DigitGroups ('_' :: rest) digits := by
        simp [digitGroups_cons_iff, digitValue?_underscore]
      simp [groupedDigits, hno, Continues, ihgroups]
    · have hdigits (digits : List Nat) (afterDigit : Bool) :
          groupedDigits Text.digitValue? afterDigit (c :: rest) = some digits ↔
            DigitGroups (c :: rest) digits := by
        rw [groupedDigits_cons_of_ne hc, digitGroups_cons_iff]
        simp only [Option.bind_eq_some_iff, Option.map_eq_some_iff, ihcontinues]
        grind
      refine ⟨fun digits => hdigits digits false, fun digits => ?_⟩
      rw [hdigits digits true, Continues]
      simp [hc]

theorem not_isBlank_of_digitValue? {n : Nat} (h : Text.digitValue? c = some n) :
    Text.isBlank c = false := by
  obtain ⟨start, hfind, -⟩ := Option.map_eq_some_iff.mp h
  have hrange := List.find?_some hfind
  simp only [Bool.and_eq_true, decide_eq_true_eq] at hrange
  have hapart : ∀ start ∈ Text.digitZeros, start + 10 ≤ 0x85 ∧ 0x20 < start ∨
      0xA0 < start ∧ start + 10 ≤ 0x1680 ∨ 0x1680 < start ∧ start + 10 ≤ 0x2000 ∨
      0x3000 < start := Text.forall_mem_of_all (by decide)
  have hstart := hapart start (List.mem_of_find?_eq_some hfind)
  simp only [Text.isBlank, Bool.or_eq_false_iff, Bool.and_eq_false_iff, decide_eq_false_iff_not,
    beq_eq_false_iff_ne]
  omega

/-- The blanks at the ends of a text are those that are trimmed. -/
theorem exists_trimBlanks (text : List Char) : ∃ front back,
    text = front ++ Text.trimBlanks text ++ back ∧ (∀ c ∈ front, Text.isBlank c) ∧
      ∀ c ∈ back, Text.isBlank c := by
  refine ⟨text.takeWhile Text.isBlank,
    ((text.dropWhile Text.isBlank).reverse.takeWhile Text.isBlank).reverse, ?_, ?_, ?_⟩
  · rw [Text.trimBlanks, List.append_assoc, ← List.reverse_append,
      List.takeWhile_append_dropWhile, List.reverse_reverse, List.takeWhile_append_dropWhile]
  · exact fun c => List.mem_takeWhile_imp
  · exact fun c hc => List.mem_takeWhile_imp (List.mem_reverse.mp hc)

theorem trimBlanks_eq (hfront : ∀ c ∈ front, Text.isBlank c) (hback : ∀ c ∈ back, Text.isBlank c)
    (hfirst : ∀ c ∈ core.head?, Text.isBlank c = false)
    (hlast : ∀ c ∈ core.getLast?, Text.isBlank c = false) (hne : core ≠ []) :
    Text.trimBlanks (front ++ core ++ back) = core := by
  have hhead {xs more : List Char} (hh : ∀ c ∈ xs.head?, Text.isBlank c = false) (hx : xs ≠ []) :
      (xs ++ more).dropWhile Text.isBlank = xs ++ more := by
    obtain ⟨c, xs, rfl⟩ := List.exists_cons_of_ne_nil hx
    simp [hh c rfl]
  rw [Text.trimBlanks, List.append_assoc, List.dropWhile_append_of_pos hfront, hhead hfirst hne,
    List.reverse_append, List.dropWhile_append_of_pos (by simpa using hback)]
  rw [← List.append_nil core.reverse, hhead (by simpa using hlast) (by simpa using hne),
    List.append_nil, List.reverse_reverse]

theorem exists_sign (text : List Char) : ∃ sign : List Char,
    (sign = [] ∨ sign = ['-'] ∨ sign = ['+']) ∧ text = sign ++ (splitSign text).2 := by
  fun_cases splitSign text with
  | case1 rest => exact ⟨['-'], by simp, rfl⟩
  | case2 rest => exact ⟨['+'], by simp, rfl⟩
  | case3 => exact ⟨[], by simp, rfl⟩

theorem DigitGroups.exists_head? (h : DigitGroups groups digits) :
    ∃ c n, groups.head? = some c ∧ Text.digitValue? c = some n := by
  cases h with
  | last h | digit h _ | group h _ => exact ⟨_, _, rfl, h⟩

theorem DigitGroups.exists_getLast? (h : DigitGroups groups digits) :
    ∃ c n, groups.getLast? = some c ∧ Text.digitValue? c = some n := by
  induction h with
  | last h => exact ⟨_, _, rfl, h⟩
  | @digit c n rest digits h hr ih | @group c n rest digits h hr ih =>
    obtain ⟨last, value, hlast, hvalue⟩ := ih
    have hrest : rest ≠ [] := by
      rintro rfl
      exact not_digitGroups_nil hr
    obtain ⟨first, rest, rfl⟩ := List.exists_cons_of_ne_nil hrest
    exact ⟨last, value, by simpa using hlast, hvalue⟩

theorem splitSign_of_digitGroups {sign : List Char}
    (hs : sign = [] ∨ sign = ['-'] ∨ sign = ['+']) (h : DigitGroups groups digits) :
    (splitSign (sign ++ groups)).2 = groups := by
  rcases hs with rfl | rfl | rfl
  · obtain ⟨c, n, hc, hn⟩ := h.exists_head?
    obtain ⟨c, rest, rfl⟩ := List.exists_cons_of_ne_nil (List.ne_nil_of_mem (List.mem_of_head? hc))
    cases hc
    have hminus : c ≠ '-' := by
      rintro rfl
      cases (show Text.digitValue? '-' = none by decide).symm.trans hn
    have hplus : c ≠ '+' := by
      rintro rfl
      cases (show Text.digitValue? '+' = none by decide).symm.trans hn
    simp [splitSign, hminus, hplus]
  · rfl
  · rfl

theorem parseInteger?_eq (text : List Char) :
    parseInteger? text = (groupedDigits Text.digitValue? false
        (splitSign (Text.trimBlanks text)).2).bind fun digits =>
      if maxIntegerDigits < digits.length then none
      else some (signed (splitSign (Text.trimBlanks text)).1 (ofDigits 10 digits)) := rfl

/-- The integers that are read are those that are written so. -/
theorem isSome_parseInteger?_iff (text : List Char) :
    (parseInteger? text).isSome ↔ IntegerLiteral text := by
  constructor
  · intro h
    obtain ⟨i, hi⟩ := Option.isSome_iff_exists.mp h
    rw [parseInteger?_eq] at hi
    obtain ⟨digits, hdigits, hlength⟩ := Option.bind_eq_some_iff.mp hi
    obtain ⟨front, back, htext, hfront, hback⟩ := exists_trimBlanks text
    obtain ⟨sign, hsign, htrim⟩ := exists_sign (Text.trimBlanks text)
    refine ⟨front, sign, _, back, digits, ?_, hfront, hsign,
      ((groupedDigits_eq_some_iff _).1 digits).mp hdigits, ?_, hback⟩
    · rwa [List.append_assoc front sign, ← htrim]
    · by_contra hlong
      rw [if_pos (by omega)] at hlength
      cases hlength
  · rintro ⟨front, sign, groups, back, digits, rfl, hfront, hsign, hgroups, hlength, hback⟩
    have hread := ((groupedDigits_eq_some_iff groups).1 digits).mpr hgroups
    have hne : groups ≠ [] := by
      rintro rfl
      exact not_digitGroups_nil hgroups
    have hfirst : ∀ c ∈ (sign ++ groups).head?, Text.isBlank c = false := by
      rcases hsign with rfl | rfl | rfl
      · obtain ⟨c, n, hc, hn⟩ := hgroups.exists_head?
        simpa [hc] using not_isBlank_of_digitValue? hn
      · simp [show Text.isBlank '-' = false by decide]
      · simp [show Text.isBlank '+' = false by decide]
    have hlast : ∀ c ∈ (sign ++ groups).getLast?, Text.isBlank c = false := by
      obtain ⟨c, n, hc, hn⟩ := hgroups.exists_getLast?
      simpa [List.getLast?_append, hc] using not_isBlank_of_digitValue? hn
    have htrim : Text.trimBlanks (front ++ sign ++ groups ++ back) = sign ++ groups := by
      rw [List.append_assoc front]
      exact trimBlanks_eq hfront hback hfirst hlast (by simp [hne])
    have hsplit := splitSign_of_digitGroups hsign hgroups
    rw [parseInteger?_eq, htrim, hsplit, hread, Option.bind_some,
      if_neg (Nat.not_lt.mpr hlength)]
    rfl

end Number

namespace Config

open Data

/-! ### What a text is taken for -/

def Bracketed (text : String) : Prop := text.startsWith "[" ∧ text.endsWith "]"

/-- A text that is not taken as it is: a truth value in letters of either case, an integer, or
a list in brackets. -/
inductive Inferred (levels : Nat) (text : String) : Prop
  | truth (h : text.toLower = "true" ∨ text.toLower = "false")
  | integer (h : Number.IntegerLiteral text.toList)
  | list (hb : Bracketed text) (h : ∃ d, Json.parse (Json.lenient levels) text.toList = .ok d)

/-- A text that is not in brackets, or that the reader of lists reads or finds malformed. What
is beyond this reader holds an integer that is too long, or nests too deeply. -/
def WithinReach (levels : Nat) (text : String) : Prop :=
  Bracketed text → ∀ failure, Json.parse (Json.lenient levels) text.toList = .error failure →
    failure = .malformed

variable {levels : Nat} {text : String} {d : Document}

theorem lowercase_eq_true_iff : Text.lowercase text = "true" ↔ text.toLower = "true" :=
  Text.lowercase_eq_iff (Text.forall_mem_of_all (by decide))

theorem lowercase_eq_false_iff : Text.lowercase text = "false" ↔ text.toLower = "false" :=
  Text.lowercase_eq_iff (Text.forall_mem_of_all (by decide))

theorem exists_inferValue (h : WithinReach levels text) : ∃ d, inferValue levels text = .ok d := by
  rcases hi : inferValue levels text with failure | d
  · obtain ⟨hstart, hend, hparse, hne⟩ := parse_of_inferValue hi
    exact absurd (h ⟨hstart, hend⟩ failure hparse) hne
  · exact ⟨d, rfl⟩

/-- A text that no reader takes for anything. -/
theorem not_inferred_of_plain (ht : ¬ (text.toLower = "true" ∨ text.toLower = "false"))
    (hi : Number.parseInteger? text.toList = none) (hb : ¬ text.startsWith "[") :
    WithinReach levels text ∧ ¬ Inferred levels text := by
  refine ⟨fun h => absurd h.1 hb, ?_⟩
  rintro (htruth | hinteger | ⟨h, -⟩)
  · exact ht htruth
  · rw [← Number.isSome_parseInteger?_iff, hi] at hinteger
    cases hinteger
  · exact hb h.1

/-- What is neither a truth value nor an integer is a list, or itself. -/
theorem inferValue_of_not_scalar (ht : ¬ (text.toLower = "true" ∨ text.toLower = "false"))
    (hi : ¬ Number.IntegerLiteral text.toList) :
    inferValue levels text = (inferList? levels text).map fun found => found.getD (.text text) := by
  have hinteger : Number.parseInteger? text.toList = none := by
    rw [← Option.not_isSome_iff_eq_none, Number.isSome_parseInteger?_iff]
    exact hi
  rw [inferValue]
  simp only [lowercase_eq_true_iff, lowercase_eq_false_iff]
  rw [if_neg fun h => ht (.inl h), if_neg fun h => ht (.inr h), hinteger]

theorem inferValue_of_not_inferred (hr : WithinReach levels text) (h : ¬ Inferred levels text) :
    inferValue levels text = .ok (.text text) := by
  have hlist : inferList? levels text = .ok none := by
    unfold inferList?
    split
    · rename_i hb
      have hb' : Bracketed text := Bool.and_eq_true_iff.mp hb
      rcases hp : Json.parse (Json.lenient levels) text.toList with failure | d
      · rw [hr hb' failure hp]
      · exact absurd (.list hb' ⟨d, hp⟩) h
    · rfl
  rw [inferValue_of_not_scalar (fun ht => h (.truth ht)) (fun hi => h (.integer hi)), hlist]
  rfl

theorem inferValue_of_plain (ht : ¬ (text.toLower = "true" ∨ text.toLower = "false"))
    (hi : Number.parseInteger? text.toList = none) (hb : ¬ text.startsWith "[") :
    inferValue levels text = .ok (.text text) := by
  obtain ⟨hr, h⟩ := not_inferred_of_plain ht hi hb
  exact inferValue_of_not_inferred hr h

/-- What is taken for something else is no text. -/
theorem inferValue_of_inferred (h : Inferred levels text) :
    ∃ d, inferValue levels text = .ok d ∧ ∀ s, d ≠ .text s := by
  rw [inferValue]
  simp only [lowercase_eq_true_iff, lowercase_eq_false_iff]
  split_ifs with htrue hfalse
  · exact ⟨.bool true, rfl, by simp⟩
  · exact ⟨.bool false, rfl, by simp⟩
  rcases hi : Number.parseInteger? text.toList with _ | i
  · cases h with
    | truth h => exact absurd h (not_or.mpr ⟨htrue, hfalse⟩)
    | integer h =>
      rw [← Number.isSome_parseInteger?_iff, hi] at h
      cases h
    | list hb h =>
      obtain ⟨d, hd⟩ := h
      have hlist : inferList? levels text = .ok (some d) := by
        rw [inferList?, if_pos (Bool.and_eq_true_iff.mpr hb), hd]
      obtain ⟨items, rfl⟩ := isList_of_inferList? hlist
      exact ⟨.list items, by rw [hlist]; rfl, by simp⟩
  · exact ⟨.int i, rfl, by simp⟩

/-! ### Lists beyond the reader -/

/-- A list of one integer, whose digits are all one. -/
def listOfOnes (n : Nat) : String := String.ofList ('[' :: (List.replicate n '1' ++ [']']))

theorem toList_listOfOnes (n : Nat) :
    (listOfOnes n).toList = '[' :: (List.replicate n '1' ++ [']']) := String.toList_ofList

theorem not_integerLiteral_of_bracket (rest : List Char) :
    ¬ Number.IntegerLiteral ('[' :: rest) := by
  have hblank : ¬ Text.isBlank '[' := by decide
  rintro ⟨front, sign, groups, back, digits, htext, hfront, hsign, hgroups, -, -⟩
  obtain ⟨c, n, hc, hn⟩ := hgroups.exists_head?
  obtain ⟨groups, rfl⟩ := List.head?_eq_some_iff.mp hc
  cases front with
  | cons b front =>
    have hb : '[' = b := by simpa using congrArg List.head? htext
    exact hblank (hb ▸ hfront b List.mem_cons_self)
  | nil =>
    rcases hsign with rfl | rfl | rfl
    · have hdigit : '[' = c := by simpa using congrArg List.head? htext
      rw [← hdigit, show Text.digitValue? '[' = none by decide] at hn
      cases hn
    · simp at htext
    · simp at htext

theorem span_ones (n : Nat) : (List.replicate n '1' ++ [']']).span Char.isDigit =
    (List.replicate n '1', [']']) := by
  have hdigits : ∀ c ∈ List.replicate n '1', c.isDigit := by
    intro c hc
    rw [List.eq_of_mem_replicate hc]
    decide
  rw [List.span_eq_takeWhile_dropWhile, List.takeWhile_append_of_pos hdigits,
    List.dropWhile_append_of_pos hdigits]
  simp [show (']').isDigit = false by decide]

theorem digits_ones {n : Nat} (h : Number.maxIntegerDigits < n) :
    Json.digits (Json.lenient levels) false (List.replicate n '1' ++ [']']) =
      .error .outOfRange := by
  obtain ⟨m, rfl⟩ : ∃ m, n = m + 1 := ⟨n - 1, by omega⟩
  have hspan := span_ones (m + 1)
  rw [List.replicate_succ, List.cons_append] at hspan ⊢
  have hnumber : Json.number (Json.lenient levels) false ('1' :: List.replicate m '1') [']'] =
      .error .outOfRange := by
    simp [Json.number, Json.fraction, Number.exponent, Json.lenient, h]
  rw [Json.digits.eq_2 _ _ _ (by simp), hspan]
  exact hnumber

/-- An integer that is too long is beyond the reader of lists. -/
theorem parse_listOfOnes {n : Nat} (h : Number.maxIntegerDigits < n) :
    Json.parse (Json.lenient (levels + 1)) (listOfOnes n).toList = .error .outOfRange := by
  have hdigits := @digits_ones (levels + 1) n h
  obtain ⟨m, rfl⟩ : ∃ m, n = m + 1 := ⟨n - 1, by omega⟩
  rw [List.replicate_succ, List.cons_append] at hdigits
  have hword (c : Char) (hc : c = '[' ∨ c = '1') (rest : List Char) :
      Json.word (Json.lenient (levels + 1)) (c :: rest) = none := by
    rcases hc with rfl | rfl <;> simp [Json.word, Json.words, Json.lenient, Json.word?]
  have hvalue (left fuel : Nat) : Json.value (Json.lenient (levels + 1)) left (fuel + 1)
      ('1' :: (List.replicate m '1' ++ [']'])) = .error .outOfRange := by
    simp [Json.value, hword, hdigits]
  have hitems (left fuel : Nat) : Json.items (Json.lenient (levels + 1)) left (fuel + 2) []
      ('1' :: (List.replicate m '1' ++ [']'])) = .error .outOfRange := by
    rw [Json.items, hvalue]
  have hlist (left fuel : Nat) : Json.value (Json.lenient (levels + 1)) (left + 1) (fuel + 3)
      ('[' :: '1' :: (List.replicate m '1' ++ [']'])) = .error .outOfRange := by
    have hskip (rest : List Char) : Json.skipBlanks ('1' :: rest) = '1' :: rest := rfl
    simp [Json.value, hword, hskip, hitems]
  rw [toList_listOfOnes, List.replicate_succ, List.cons_append, Json.parse,
    show Json.skipBlanks ('[' :: '1' :: (List.replicate m '1' ++ [']'])) =
      '[' :: '1' :: (List.replicate m '1' ++ [']']) from rfl, List.length_cons, List.length_cons]
  generalize (List.replicate m '1' ++ [']']).length = size at *
  rw [show 2 * (size + 1 + 1) + 2 = (2 * size + 3) + 3 by omega,
    show (Json.lenient (levels + 1)).maxDepth = levels + 1 from rfl, hlist]

theorem inferValue_listOfOnes {n : Nat} (h : Number.maxIntegerDigits < n) :
    inferValue (levels + 1) (listOfOnes n) = .error .outOfRange := by
  have hinteger : ¬ Number.IntegerLiteral (listOfOnes n).toList := by
    rw [toList_listOfOnes]
    exact not_integerLiteral_of_bracket _
  have htruth : ¬ ((listOfOnes n).toLower = "true" ∨ (listOfOnes n).toLower = "false") := by
    rw [← String.toList_inj, ← String.toList_inj, String.toLower, String.toList_map,
      toList_listOfOnes]
    simp [show ('[').toLower = '[' by decide]
  have hbrackets : ((listOfOnes n).startsWith "[" && (listOfOnes n).endsWith "]") = true := by
    rw [Bool.and_eq_true, String.startsWith_string_iff, ← String.endsWith_toSlice,
      String.Slice.endsWith_string_iff, String.copy_toSlice, toList_listOfOnes]
    exact ⟨⟨_, rfl⟩, '[' :: List.replicate n '1', rfl⟩
  rw [inferValue_of_not_scalar htruth hinteger, inferList?, if_pos hbrackets, parse_listOfOnes h]
  rfl

end Config

end Mustache
