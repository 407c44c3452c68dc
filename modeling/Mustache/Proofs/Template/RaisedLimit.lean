import Mustache.Proofs.Template.Limit
import Mustache.Proofs.Template.Location

/-! Compiling again under a higher limit. The limit is looked at in front of an open tag,
before the tag or the end of its section has been read. Main result: what compiles, or is
refused for anything but its nesting, comes to the same under a higher limit; and where
the nesting was refused, reading goes on, so that nothing further in front is refused then. -/

namespace Mustache.Template

variable {limit limit' depth : Nat} {done : List Node} {s : Span} {o : Opening}
  {e e' : SyntaxError}

/-- Nothing is refused in front of the first tag. -/
theorem offset_le_of_nextOpening (ho : s.nextOpening = .ok (some o))
    (h : buildOnto limit depth done s = .error e) : o.offset ≤ e.offset := by
  obtain ⟨start, cs⟩ := s
  obtain ⟨htext, hoffset, hchars, -⟩ := Span.nextOpening_eq_some ho
  simp only at hoffset hchars
  rw [hchars, buildOnto_consText htext (by simp), ← hoffset] at h
  exact (holds_of_buildOnto h).1

theorem Opening.stop_body_le_start_rest {sec : SectionSpan} (h : o.enclosed = .ok sec) :
    sec.body.stop ≤ sec.rest.start := by
  unfold enclosed at h
  split at h
  · cases h
  · rename_i name behind hf
    split at h
    · cases h
    · rename_i close hend
      cases h
      obtain ⟨body, inner, -, -, hchars, hstart⟩ := Span.sectionEnd_eq_ok hend
      obtain ⟨-, -, hbody, -, -, hstop⟩ := Span.sectionEnd_scan hend
      obtain ⟨lineEnd, -, -, hskip⟩ := close.rest.skipLineEnd_partOf
      simp only [Span.stop, hchars, List.length_append, List.length_cons] at hstop
      simp only
      omega

/-- Under a higher limit nothing is refused further in front. -/
theorem offset_le_of_limit_le (hle : limit ≤ limit')
    (h : buildOnto limit depth done s = .error e)
    (h' : buildOnto limit' depth done s = .error e') : e.offset ≤ e'.offset := by
  induction hn : s.chars.length using Nat.strong_induction_on generalizing s depth done with
  | h n ih =>
    subst hn
    have hbehind : ∀ o, s.nextOpening = .ok (some o) → o.offset ≤ e'.offset :=
      fun o ho => offset_le_of_nextOpening ho h'
    rw [buildOnto_eq] at h h'
    split at h
    · rename_i hnext
      simp only [hnext] at h'
      cases h
      cases h'
      exact le_rfl
    · cases h
    · rename_i o ho
      simp only [ho] at h'
      cases hsigil : o.sigil with
      | close =>
        simp only [hsigil] at h
        cases h
        exact hbehind o ho
      | block sense =>
        simp only [hsigil] at h h'
        split at h
        · cases h
          exact hbehind o ho
        · rename_i hroom
          rw [if_neg fun hroom' => hroom (hle.trans hroom')] at h'
          split at h
          · rename_i hsec
            simp only [hsec] at h'
            cases h
            cases h'
            exact le_rfl
          · rename_i sec hsec
            simp only [hsec] at h'
            obtain ⟨hltBody, hltRest⟩ := Opening.enclosed_length_lt ho hsec
            split at h
            · rename_i hbody
              cases h
              split at h'
              · rename_i hbody'
                cases h'
                exact ih _ hltBody hbody hbody' rfl
              · -- the body was refused for its nesting, and now what follows it is refused
                exact (holds_of_buildOnto hbody).2.trans
                  ((Opening.stop_body_le_start_rest hsec).trans (holds_of_buildOnto h').1)
            · rename_i children hbody
              have hbody' : buildOnto limit' (depth + 1) [] sec.body = .ok children := by
                obtain ⟨offset, hdeep⟩ | hsame := buildOnto_of_limit_le hle (depth + 1) [] sec.body
                · cases hdeep.symm.trans hbody
                · exact hsame.trans hbody
              simp only [hbody'] at h'
              exact ih _ hltRest h h' rfl
      | field | inclusion | comment =>
        simp only [hsigil] at h h'
        split at h
        · rename_i hf
          simp only [hf] at h'
          cases h
          cases h'
          exact le_rfl
        · rename_i label behind hf
          simp only [hf] at h'
          have hlt := Span.tag_length_lt ho hf
          have hskip := behind.behindTag_length_le o.sigil
          rw [hsigil] at hskip
          exact ih _ (hskip.trans_lt hlt) h h' rfl

/-- What compiles under a limit compiles to the same under a higher one, and what is refused
for anything but its nesting is refused for the same at the same offset. What is refused for
its nesting compiles under the higher limit, or is refused there or further on. -/
theorem parse_of_raised_limit (h : limit ≤ limit') (source : List Char) :
    (∀ nodes, parse limit source = .ok nodes → parse limit' source = .ok nodes) ∧
    (∀ e, parse limit source = .error e → (∀ n, e.defect ≠ .nestingTooDeep n) →
      parse limit' source = .error e) ∧
    ∀ n offset, parse limit source = .error ⟨.nestingTooDeep n, offset⟩ →
      (∃ nodes, parse limit' source = .ok nodes) ∨
        ∃ e', parse limit' source = .error e' ∧ offset ≤ e'.offset := by
  refine ⟨fun nodes hnodes => ?_, fun e herror hdefect => ?_, fun n offset herror => ?_⟩
  · obtain ⟨offset, hdeep⟩ | hsame := parse_of_limit_le h source
    · cases hdeep.symm.trans hnodes
    · exact hsame.trans hnodes
  · obtain ⟨offset, hdeep⟩ | hsame := parse_of_limit_le h source
    · cases hdeep.symm.trans herror
      exact absurd rfl (hdefect limit)
    · exact hsame.trans herror
  · cases hparse : parse limit' source with
    | ok nodes => exact .inl ⟨nodes, rfl⟩
    | error e' => exact .inr ⟨e', rfl, offset_le_of_limit_le h herror hparse⟩

/-- A section in a section in a section, the innermost of which is not closed. -/
def unclosedInSections : List Char :=
  ("\x7b\x7b#a\x7d\x7d\x7b\x7b#b\x7d\x7d\x7b\x7b#c\x7d\x7d" ++
    "\x7b\x7b/b\x7d\x7d\x7b\x7b/a\x7d\x7d").toList

/-- Under the higher limit the section is entered, and the search for its end fails. -/
theorem parse_of_raised_limit_unclosed :
    2 ≤ 3 ∧ parse 2 unclosedInSections = .error ⟨.nestingTooDeep 2, 12⟩ ∧
      (∃ e', parse 3 unclosedInSections = .error e' ∧ 12 ≤ e'.offset) ∧
      parse 3 unclosedInSections = .error ⟨.expectedEnd "c", 18⟩ := by
  have hdeep : parse 2 unclosedInSections = .error ⟨.nestingTooDeep 2, 12⟩ := by
    with_unfolding_all rfl
  have hunclosed : parse 3 unclosedInSections = .error ⟨.expectedEnd "c", 18⟩ := by
    with_unfolding_all rfl
  obtain ⟨-, -, hgoesOn⟩ := @parse_of_raised_limit 2 3 (by decide) unclosedInSections
  obtain ⟨nodes, hnodes⟩ | hfurther := hgoesOn 2 12 hdeep
  · cases hunclosed.symm.trans hnodes
  · exact ⟨by decide, hdeep, hfurther, hunclosed⟩

end Mustache.Template
