import Mustache.Proofs.Render.Extension
import Mustache.Proofs.Template.Limit

/-! Two limits. The number of levels that sections and inclusions may nest decides in four
places: when a source is compiled, when a section or an inclusion is entered, and when the
text that a lambda returns is compiled. Main result: a render under a higher limit goes on
where the one under a lower limit is refused, and otherwise the two are the same. -/

namespace Mustache

open Template

/-- The other computation does the same, or goes on where this one is refused. -/
abbrev Run.ContinuedBy {α : Type} (r r' : Run α) : Prop :=
  StopsShort Eq (fun failure s s' => failure.IsTooDeep ∧ s.Precedes s') r r'

namespace Run.ContinuedBy

theorem stopping :
    Run.Stopping Eq fun failure s s' => failure.IsTooDeep ∧ Session.Precedes s s' where
  report := by
    rintro s _ event rfl
    rfl
  events _ h := ⟨h.1, h.2.withEvents ..⟩
  later h hs := ⟨h.1, h.2.trans hs⟩

variable {α : Type} {r : Run α}

theorem of_extends (h : Run.Extends r) : ContinuedBy r r where
  adds := h
  agrees := by
    rintro s _ rfl
    exact .inl ⟨rfl, rfl⟩

theorem of_refused {e : TemplateError} (hdeep : e.kind = .nestingTooDeep) (h : Run.Extends r) :
    ContinuedBy (Run.reject e) r where
  adds := h
  agrees := by
    rintro s _ rfl
    exact .inr ⟨.template e, rfl, hdeep, h s⟩

theorem congruence : Run.Congruence (fun _ => True) fun _ r r' => ContinuedBy r r' where
  toComposes := StopsShort.composes stopping
  reject hkind := of_extends (Extends.congruence.reject hkind)
  throw _ := of_extends (Extends.congruence.throw trivial)
  log event := of_extends (Extends.congruence.log event)
  write text := of_extends (Extends.congruence.write text)
  calling hc hF := of_extends (Extends.congruence.calling hc hF)
  reporting identifier hr := StopsShort.reporting stopping identifier hr

section Limits

variable {loader : Loader} {encoding : String} {maxDepth maxDepth' : Nat}

theorem compiled_of_maxDepth_le (h : maxDepth ≤ maxDepth') (identifier : String) :
    (∃ failure : Failure, failure.IsTooDeep ∧
      Setup.compiled ⟨loader, encoding, maxDepth⟩ identifier = .error failure) ∨
    Setup.compiled ⟨loader, encoding, maxDepth⟩ identifier =
      Setup.compiled ⟨loader, encoding, maxDepth'⟩ identifier := by
  unfold Setup.compiled Template.compile
  cases loader.load identifier with
  | error failure => exact .inr rfl
  | ok bytes =>
    cases hdecode : decode encoding identifier bytes with
    | error e => exact .inr (by simp only [Except.bind, hdecode])
    | ok source =>
      obtain ⟨offset, hrefused⟩ | hsame := parse_of_limit_le h source
      · left
        simp only [Except.bind, hdecode, hrefused]
        exact ⟨_, by rfl, rfl⟩
      · exact .inr (by simp only [Except.bind, hdecode, hsame])

theorem fetch (h : maxDepth ≤ maxDepth') (identifier : String) :
    ContinuedBy (Setup.fetch ⟨loader, encoding, maxDepth⟩ identifier)
      (Setup.fetch ⟨loader, encoding, maxDepth'⟩ identifier) := by
  obtain ⟨failure, hdeep, hrefused⟩ | hsame :=
    @compiled_of_maxDepth_le loader encoding _ _ h identifier
  · refine ⟨Extends.fetch _ identifier, ?_⟩
    rintro s _ rfl
    cases hfind : s.cache.find? identifier with
    | some t =>
      rw [Setup.fetch_of_find?_eq_some hfind, Setup.fetch_of_find?_eq_some hfind]
      exact .inl ⟨rfl, rfl⟩
    | none =>
      rw [Setup.fetch_of_compiled_eq_error hfind hrefused]
      refine .inr ⟨failure, rfl, hdeep, ?_⟩
      cases hcompiled : Setup.compiled ⟨loader, encoding, maxDepth'⟩ identifier with
      | ok t =>
        rw [Setup.fetch_of_compiled_eq_ok hfind hcompiled]
        exact ⟨List.prefix_append .., List.prefix_rfl, List.prefix_rfl, List.prefix_rfl⟩
      | error failure' =>
        rw [Setup.fetch_of_compiled_eq_error hfind hcompiled]
        exact ⟨List.prefix_rfl, List.prefix_rfl, List.prefix_rfl, List.prefix_rfl⟩
  · rw [Setup.fetch_congr hsame]
    exact of_extends (Extends.fetch _ identifier)

theorem expand {below below' : Nat} (h : below ≤ below') (f : Lambda) (body : String) :
    ContinuedBy (Setup.expand below f body) (Setup.expand below' f body) := by
  refine congruence.bind (congruence.calling (f.appends_apply body) fun _ _ _ => trivial)
    fun text => ?_
  dsimp only
  obtain ⟨offset, hrefused⟩ | hsame :=
    parse_of_limit_le (max_le_max_right 1 h) text.toList
  · rw [hrefused]
    refine of_refused rfl ?_
    split
    · exact Extends.congruence.pure _
    · exact Extends.congruence.reject (TemplateError.kind_ofSyntaxIn_ne _ _)
  · rw [hsame]
    cases parse (max below 1) text.toList with
    | ok nodes => exact congruence.pure nodes
    | error e => exact congruence.reject (TemplateError.kind_ofSyntaxIn_ne _ _)

theorem renderNodes (h : maxDepth ≤ maxDepth') (limit limit' : Nat) {remaining remaining' : Nat}
    (hle : remaining ≤ remaining') (c : Contexts) (nodes : List Node) :
    ContinuedBy (Setup.renderNodes ⟨loader, encoding, maxDepth⟩ limit remaining c nodes)
      (Setup.renderNodes ⟨loader, encoding, maxDepth'⟩ limit' remaining' c nodes) := by
  induction remaining using Nat.strong_induction_on generalizing remaining' c nodes with
  | h remaining ih =>
    rw [Setup.renderNodes_eq_forM, Setup.renderNodes_eq_forM]
    refine congruence.forM fun node _ => ?_
    have hadds : Run.Extends
        (Setup.renderNode ⟨loader, encoding, maxDepth'⟩ limit' remaining' c node) := by
      rw [← Setup.renderNodes_singleton]
      exact Extends.congruence.renderNodes_self (Extends.fetch _) _ _ (fun _ _ => trivial) [node]
    cases node with
    | text content => exact congruence.write content
    | field name =>
      exact congruence.bind (congruence.calling (c.appends_text name) fun _ _ _ => trivial)
        congruence.write
    | inclusion name =>
      cases remaining with
      | zero => exact of_refused rfl hadds
      | succ below =>
        obtain ⟨below', rfl⟩ : ∃ below', remaining' = below' + 1 := ⟨remaining' - 1, by omega⟩
        exact congruence.bind (fetch h name) fun t =>
          ih below below.lt_succ_self (by omega) c t.nodes
    | block sense name body children =>
      cases remaining with
      | zero => exact of_refused rfl hadds
      | succ below =>
        obtain ⟨below', rfl⟩ : ∃ below', remaining' = below' + 1 := ⟨remaining' - 1, by omega⟩
        have hbelow : below ≤ below' := by omega
        change ContinuedBy (Setup.showBody _ limit below c body children _)
          (Setup.showBody _ limit' below' c body children _)
        cases Showing.ofSection sense c name with
        | bodies contexts =>
          exact congruence.forM fun c _ => ih below below.lt_succ_self hbelow c children
        | expansion f =>
          exact congruence.bind (expand hbelow f body) fun nodes =>
            ih below below.lt_succ_self hbelow c nodes

end Limits

end Run.ContinuedBy

namespace Engine

/-- Raising the limit changes a render only where it was refused for nesting too deep, and
lets it go on from there: what was written, called, requested and cached up to the refusal
comes first under the higher limit too. -/
theorem render_of_maxDepth_le (loader : Loader) (encoding : String) {maxDepth maxDepth' : Nat}
    (h : maxDepth ≤ maxDepth') (identifier : String) (context : Datum) (sink : Sink) :
    let out := (fresh ⟨loader, encoding, maxDepth⟩).outcome (.render identifier context sink)
    let out' := (fresh ⟨loader, encoding, maxDepth'⟩).outcome (.render identifier context sink)
    (¬ out.IsTooDeep → out = out') ∧ (out.IsTooDeep → out.session.Precedes out'.session) := by
  intro out out'
  have hrender : Run.ContinuedBy (Setup.render ⟨loader, encoding, maxDepth⟩ identifier context)
      (Setup.render ⟨loader, encoding, maxDepth'⟩ identifier context) :=
    Run.ContinuedBy.congruence.render_of_renderNodes (Run.ContinuedBy.fetch h)
      (fun c _ => Run.ContinuedBy.renderNodes h maxDepth maxDepth' h c) identifier
      fun _ _ => trivial
  obtain ⟨hresult, hend⟩ | ⟨failure, hresult, hdeep, hs⟩ :=
    hrender.agrees (.start .empty sink) _ rfl
  · have hout : out = out' :=
      congrArg₂ Outcome.mk (congrArg (Except.map fun _ => none) hresult) hend
    exact ⟨fun _ => hout, fun _ => hout ▸ .refl _⟩
  · have hout : out.IsTooDeep := ⟨failure, result_render_eq_error_iff.2 hresult, hdeep⟩
    exact ⟨fun hnot => absurd hout hnot, fun _ => hs⟩

/-- A source that writes `x` and then includes itself. -/
def endless : Loader := .memory [("a", .bytes [120, 123, 123, 62, 97, 125, 125])] 99

theorem render_of_maxDepth_le_endless :
    1 ≤ 2 ∧ ((fresh ⟨endless, "u8", 1⟩).outcome (.render "a" (.ofFields []) .unlimited)).IsTooDeep ∧
    ((fresh ⟨endless, "u8", 1⟩).outcome (.render "a" (.ofFields []) .unlimited)).session.Precedes
      ((fresh ⟨endless, "u8", 2⟩).outcome (.render "a" (.ofFields []) .unlimited)).session := by
  have hresult :
      ((fresh ⟨endless, "u8", 1⟩).outcome (.render "a" (.ofFields []) .unlimited)).result =
      .error (.template (Setup.tooDeep 1 "a")) := by cbv
  have hdeep : ((fresh ⟨endless, "u8", 1⟩).outcome
      (.render "a" (.ofFields []) .unlimited)).IsTooDeep := ⟨_, hresult, rfl⟩
  exact ⟨by decide, hdeep, (render_of_maxDepth_le endless "u8" (by decide : 1 ≤ 2) "a"
    (.ofFields []) .unlimited).2 hdeep⟩

end Engine

end Mustache
