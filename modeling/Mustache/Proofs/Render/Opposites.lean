import Mustache.Proofs.Render.Stepwise

/-! A section and the inverted section of the same name. Which of the two shows its body is
decided by what is found under the name, for either of them by itself. Main result: the two
decisions never agree to show, and they agree not to show for two kinds of values only. -/

namespace Mustache

open Template

namespace Showing

/-- The body is shown at least once, or handed to a lambda. -/
def Starts : Showing → Prop
  | .bodies contexts => contexts ≠ []
  | .expansion _ => True

theorem starts_inverted_iff (found : Option Value) (c : Contexts) :
    (ofFound .inverted found c).Starts ↔ found = none ∨ found = some (.bool false) := by
  cases found with
  | none => simp [ofFound, Starts]
  | some v =>
    cases v with
    | bool b => cases b <;> simp [ofFound, Starts]
    | _ => simp [ofFound, Starts]

/-- A sequence starts the body if it holds anything, be it a record or not. -/
theorem starts_seq_iff (items : List Value) (c : Contexts) :
    (ofValue c (.seq items)).Starts ↔ items ≠ [] := by
  cases hrecords : items.filter Value.isRecord with
  | nil => cases items <;> simp [ofValue, hrecords, Starts]
  | cons v records =>
    have hne : items ≠ [] := by
      rintro rfl
      cases hrecords
    simpa [ofValue, hrecords, Starts] using hne

theorem starts_normal_iff (found : Option Value) (c : Contexts) :
    (ofFound .normal found c).Starts ↔ found ≠ none ∧ found ≠ some (.bool false) ∧
      found ≠ some .absent ∧ found ≠ some (.seq []) := by
  cases found with
  | none => simp [ofFound, Starts]
  | some v =>
    cases v with
    | bool b => cases b <;> simp [ofFound, ofValue, Starts]
    | seq items => simpa [ofFound] using starts_seq_iff items c
    | _ => simp [ofFound, ofValue, Starts]

end Showing

namespace Setup

/-- A walk of this depth that comes to a section starts the body of the section: it starts an
inner walk over the children, or it calls a lambda with the raw body. Children without any
node are walked over as well, although nobody can tell by what is written. -/
inductive StartsBody (setup : Setup) (limit depth : Nat) (c : Contexts) (sense : Sense)
    (name body : String) (children : List Node) (s : Session) : Prop
  | walk {inner : List (Contexts × List Node)} {s' : Session} {c' : Contexts} :
      setup.visit limit depth c (.block sense name body children) s = (.ok inner, s') →
      (c', children) ∈ inner → StartsBody setup limit depth c sense name body children s
  | call : (setup.visit limit depth c (.block sense name body children) s).2.calls =
      s.calls.push body → StartsBody setup limit depth c sense name body children s

variable {setup : Setup} {limit depth : Nat} {c : Contexts} {sense : Sense} {name body : String}
  {children : List Node} {s : Session}

theorem visit_of_bodies (hdepth : depth < limit) {contexts : List Contexts}
    (hshowing : Showing.ofSection sense c name = .bodies contexts) (body : String)
    (children : List Node) (s : Session) :
    setup.visit limit depth c (.block sense name body children) s =
      (.ok (contexts.map (·, children)), s) := by
  rw [visit, if_neg (Nat.not_le.2 hdepth), hshowing]
  rfl

/-- An expansion calls its lambda with the raw body, whatever becomes of what that returns. -/
theorem calls_expand (below : Nat) (f : Lambda) (body : String) (s : Session) :
    (expand below f body s).2.calls = s.calls.push body := by
  rw [expand, Run.bind_apply, Run.calling_apply, Lambda.apply]
  cases f.call body with
  | error fault => rfl
  | ok text =>
    dsimp only [Except.mapError]
    cases parse (max below 1) text.toList <;> rfl

theorem calls_visit_of_expansion (hdepth : depth < limit) {f : Lambda}
    (hshowing : Showing.ofSection sense c name = .expansion f) :
    (setup.visit limit depth c (.block sense name body children) s).2.calls =
      s.calls.push body := by
  rw [visit, if_neg (Nat.not_le.2 hdepth), hshowing]
  simp only [Run.bind_pure_apply, calls_expand]

theorem startsBody_iff (hdepth : depth < limit) :
    setup.StartsBody limit depth c sense name body children s ↔
      (Showing.ofSection sense c name).Starts := by
  cases hshowing : Showing.ofSection sense c name with
  | expansion f => exact iff_of_true (.call (calls_visit_of_expansion hdepth hshowing)) trivial
  | bodies contexts =>
    have hvisit : setup.visit limit depth c (.block sense name body children) s = _ :=
      visit_of_bodies hdepth hshowing body children s
    constructor
    · rintro (⟨hout, hmem⟩ | hcalls)
      · cases hvisit.symm.trans hout
        obtain ⟨c', hc', -⟩ := List.mem_map.1 hmem
        exact List.ne_nil_of_mem hc'
      · rw [hvisit] at hcalls
        exact absurd (congrArg Array.size hcalls) (by simp)
    · intro hne
      obtain ⟨c', rest, rfl⟩ := List.exists_cons_of_ne_nil hne
      exact .walk hvisit List.mem_cons_self

theorem renderNode_of_not_startsBody (hdepth : depth < limit)
    (h : ¬ setup.StartsBody limit depth c sense name body children s) :
    setup.renderNode limit (limit - depth) c (.block sense name body children) s = (.ok (), s) := by
  rw [startsBody_iff hdepth] at h
  cases hshowing : Showing.ofSection sense c name with
  | expansion f =>
    rw [hshowing] at h
    exact absurd trivial h
  | bodies contexts =>
    obtain rfl : contexts = [] := by simpa [hshowing, Showing.Starts] using h
    rw [renderNode_eq_visit setup (Nat.add_sub_cancel' hdepth.le), Run.bind_apply,
      visit_of_bodies hdepth hshowing body children s]
    rfl

/-- Of a section and the inverted section of the same name at most one starts its body, in any
contexts and whatever the field holds. The inverted one does where the current context is no
record, or has no such field, or holds false in it; neither does where the field holds nothing
or an empty sequence. The one that does not start its body does nothing at all. -/
theorem startsBody_of_either (setup : Setup) (hdepth : depth < limit) (c : Contexts)
    (name body : String) (children : List Node) (s : Session) :
    let starts (sense : Sense) : Prop :=
      setup.StartsBody limit depth c sense name body children s
    ¬ (starts .normal ∧ starts .inverted) ∧
    (starts .inverted ↔ ¬ c.current.isRecord ∨ c.current.field? name = none ∨
      c.current.field? name = some (.bool false)) ∧
    (¬ starts .normal ∧ ¬ starts .inverted ↔ c.current.field? name = some .absent ∨
      c.current.field? name = some (.seq [])) ∧
    ∀ sense, ¬ starts sense →
      setup.renderNode limit (limit - depth) c (.block sense name body children) s =
        (.ok (), s) := by
  intro starts
  have hnormal : starts .normal ↔ _ :=
    (startsBody_iff hdepth).trans (Showing.starts_normal_iff (c.current.field? name) c)
  have hinverted : starts .inverted ↔ _ :=
    (startsBody_iff hdepth).trans (Showing.starts_inverted_iff (c.current.field? name) c)
  have hrecord : ¬ c.current.isRecord → c.current.field? name = none := by
    cases c.current with
    | record fields => exact fun h => absurd rfl h
    | _ => exact fun _ => rfl
  refine ⟨?_, ?_, ?_, fun sense h => renderNode_of_not_startsBody hdepth h⟩
  · rw [hnormal, hinverted]
    tauto
  · rw [hinverted]
    tauto
  · rw [hnormal, hinverted]
    generalize c.current.field? name = found
    cases found with
    | none => simp
    | some v => cases v <;> simp

/-- Neither looks at the outer context, in which the field is true. -/
theorem startsBody_of_either_nothing :
    let setup : Setup := ⟨.memory [] 0, "u8", 1⟩
    let c : Contexts := ⟨.record [("s", .absent)], some (.record [("s", .bool true)])⟩
    let starts (sense : Sense) : Prop :=
      setup.StartsBody 1 0 c sense "s" "x" [.text "x"] (.start .empty .unlimited)
    0 < 1 ∧ ¬ starts .normal ∧ ¬ starts .inverted ∧
      setup.renderNode 1 (1 - 0) c (.block .normal "s" "x" [.text "x"])
        (.start .empty .unlimited) = (.ok (), .start .empty .unlimited) := by
  intro setup c starts
  obtain ⟨-, -, hneither, hnothing⟩ := startsBody_of_either setup Nat.zero_lt_one c "s" "x"
    [.text "x"] (.start .empty .unlimited)
  have hstarts : ¬ starts .normal ∧ ¬ starts .inverted := hneither.2 (.inl rfl)
  exact ⟨Nat.zero_lt_one, hstarts.1, hstarts.2, hnothing .normal hstarts.1⟩

end Setup

end Mustache
