import Mustache.Proofs.Template.Printer

/-! The nesting limit of compiling. A higher limit changes nothing but what was refused for
nesting too deep. Main results: compiling under a higher limit agrees with compiling under
a lower one that refuses nothing, and of a source that compiles under some limit another
limit refuses just the nodes in which more sections nest; so a section anywhere in compiled
nodes has the children that its own body compiles to, or is refused for its height. -/

namespace Mustache.Template

/-- Compiling under a higher limit differs only where the lower one refuses to nest
deeper. -/
theorem buildOnto_of_limit_le {limit limit' : Nat} (h : limit ≤ limit') (depth : Nat)
    (done : List Node) (s : Span) :
    (∃ offset, buildOnto limit depth done s = .error ⟨.nestingTooDeep limit, offset⟩) ∨
      buildOnto limit' depth done s = buildOnto limit depth done s := by
  induction hn : s.chars.length using Nat.strong_induction_on generalizing s depth done with
  | h n ih =>
    subst hn
    rw [buildOnto_eq limit, buildOnto_eq limit']
    split
    · exact .inr rfl
    · exact .inr rfl
    · rename_i o ho
      cases hsigil : o.sigil with
      | close => exact .inr rfl
      | block sense =>
        simp only
        by_cases hroom : limit ≤ depth
        · exact .inl ⟨o.offset, if_pos hroom⟩
        · rw [if_neg hroom, if_neg fun hle => hroom (h.trans hle)]
          split
          · exact .inr rfl
          · rename_i sec hsec
            obtain ⟨hltBody, hltRest⟩ := Opening.enclosed_length_lt ho hsec
            obtain ⟨offset, hbody⟩ | hbody := ih _ hltBody (depth + 1) [] sec.body rfl
            · exact .inl ⟨offset, by rw [hbody]⟩
            · rw [hbody]
              split
              · exact .inr rfl
              · exact ih _ hltRest depth _ sec.rest rfl
      | field | inclusion | comment =>
        simp only
        split
        · exact .inr rfl
        · rename_i label behind hf
          have hlt := Span.tag_length_lt ho hf
          have hle := behind.behindTag_length_le o.sigil
          rw [hsigil] at hle
          exact ih _ (hle.trans_lt hlt) depth _ _ rfl

theorem parse_of_limit_le {limit limit' : Nat} (h : limit ≤ limit') (source : List Char) :
    (∃ offset, parse limit source = .error ⟨.nestingTooDeep limit, offset⟩) ∨
      parse limit' source = parse limit source :=
  buildOnto_of_limit_le h 0 [] _

/-- What compiles under some limit compiles alike under any that its sections keep to. -/
theorem parse_of_heightOf_le {limit limit' : Nat} {source : List Char} {nodes : List Node}
    (h : parse limit source = .ok nodes) (hle : heightOf nodes ≤ limit') :
    parse limit' source = .ok nodes := by
  obtain ⟨ps, hcut, hwritten, hforms⟩ := parse_eq_ok_iff_forms.1 h
  exact parse_eq_ok_iff_forms.2 ⟨ps, hcut, hwritten, hforms.of_heightOf_le hle⟩

theorem heightOf_le_of_parse {limit : Nat} {source : List Char} {nodes : List Node}
    (h : parse limit source = .ok nodes) : heightOf nodes ≤ limit := by
  obtain ⟨ps, -, -, hforms⟩ := parse_eq_ok_iff_forms.1 h
  exact hforms.heightOf_le

/-- What compiles under some limit is refused under any that its sections exceed. -/
theorem parse_of_lt_heightOf {limit limit' : Nat} {source : List Char} {nodes : List Node}
    (h : parse limit source = .ok nodes) (hlt : limit' < heightOf nodes) :
    ∃ offset, parse limit' source = .error ⟨.nestingTooDeep limit', offset⟩ := by
  obtain hrefused | hsame := parse_of_limit_le (hlt.le.trans (heightOf_le_of_parse h)) source
  · exact hrefused
  · -- the limit refuses, or the nodes would keep to it
    exact absurd (heightOf_le_of_parse (hsame ▸ h)) hlt.not_ge

/-- A source compiles to the same nodes under all limits under which it compiles. -/
theorem eq_of_parse {limit limit' : Nat} {source : List Char} {nodes nodes' : List Node}
    (h : parse limit source = .ok nodes) (h' : parse limit' source = .ok nodes') :
    nodes = nodes' := by
  have hle : heightOf nodes ≤ max limit limit' := (heightOf_le_of_parse h).trans (le_max_left ..)
  have hle' : heightOf nodes' ≤ max limit limit' :=
    (heightOf_le_of_parse h').trans (le_max_right ..)
  exact Except.ok.inj ((parse_of_heightOf_le h hle).symm.trans (parse_of_heightOf_le h' hle'))

theorem lt_heightOf_iff {n : Nat} {nodes : List Node} :
    n < heightOf nodes ↔ ∃ node ∈ nodes, n < node.height := by
  induction nodes with
  | nil => simp [heightOf]
  | cons node nodes ih =>
    have hmax : n < max node.height (heightOf nodes) ↔ n < node.height ∨ n < heightOf nodes := by
      omega
    rw [heightOf, hmax, ih, List.exists_mem_cons_iff]

/-! ### Nodes at any depth -/

/-- A node stands among some nodes, or among the children of a section there. -/
inductive Occurs (node : Node) : List Node → Prop
  | here {nodes : List Node} : node ∈ nodes → Occurs node nodes
  | inside {nodes children : List Node} {sense : Sense} {name body : String} :
      .block sense name body children ∈ nodes → Occurs node children → Occurs node nodes

theorem AllWellFormed.of_mem {limit : Nat} {node : Node} {nodes : List Node}
    (h : AllWellFormed limit nodes) (hmem : node ∈ nodes) : node.WellFormed limit := by
  induction nodes with
  | nil => cases hmem
  | cons head nodes ih =>
    obtain rfl | hmem := List.mem_cons.1 hmem
    · exact h.1
    · exact ih h.2 hmem

theorem AllWellFormed.of_occurs {limit : Nat} {node : Node} {nodes : List Node}
    (h : AllWellFormed limit nodes) (hnode : Occurs node nodes) : node.WellFormed limit := by
  induction hnode with
  | here hmem => exact h.of_mem hmem
  | inside hmem _ ih => exact ih (h.of_mem hmem).2.2

/-- A section anywhere in compiled nodes has the children that its body compiles to. -/
theorem parse_body_of_occurs {limit : Nat} {source : List Char} {nodes children : List Node}
    {sense : Sense} {name body : String} (h : parse limit source = .ok nodes)
    (hblock : Occurs (.block sense name body children) nodes) :
    parse limit body.toList = .ok children := by
  obtain ⟨ps, hcut, -, hforms⟩ := parse_eq_ok_iff_forms.1 h
  exact ((hforms.allWellFormed hcut le_rfl).of_occurs hblock).2.1

end Mustache.Template
