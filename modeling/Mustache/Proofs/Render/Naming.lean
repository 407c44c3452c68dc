import Mustache.Proofs.Engine.Refusal
import Mustache.Proofs.Render.Keeping
import Mustache.Proofs.Render.Stepwise

/-! Which template an error names. A render fails before its first step, or in the step that
visits a node; what fails there names the template that the node includes, or nothing. A
section for which no level is left is refused by the name of its field, which need not be the
name of any template; and what a lambda, a scalar or the sink raises may name anything. Main
result: these are all the names that the error of a render can have. -/

namespace Mustache

open Template

/-! ### Names of failures -/

/-- The name that a failure gives, if it gives one, is as `P` says. -/
def Failure.Names (P : TemplateError → String → Prop) : Failure → Prop
  | .template e => ∀ name ∈ e.identifier, P e name
  | .raised _ | .path _ | .bytes _ => True

/-- A computation that writes to a sink fails only with names as `P` says, or as `G` allows. -/
abbrev Run.FailsNaming (sink : Sink) (G : Failure → Prop) (P : TemplateError → String → Prop)
    {α : Type} (r : Run α) : Prop :=
  Keeps (fun s => s.sink.limit = sink.limit) (fun failure => failure.Names P ∨ G failure) r

namespace Run.FailsNaming

variable {sink : Sink} {G : Failure → Prop} {P : TemplateError → String → Prop}

theorem unread (sink : Sink) : Session.Unread fun s => s.sink.limit = sink.limit :=
  ⟨fun _ h => h, fun _ h => h, fun _ h => h⟩

theorem write (hsink : ∀ failure, sink.Raises failure → G failure) (text : String) :
    FailsNaming sink G P (Run.write text) :=
  Keeps.write (unread sink)
    (fun _ _ hs hrefused => .inr (hsink _ (Sink.raises_of_failure? hs hrefused))) text

theorem calling {α : Type} {c : Calling α} (hc : c.FailsAs G) :
    FailsNaming sink G P (Run.calling c) :=
  Keeps.calling (unread sink) (hc.mono fun _ => .inr)

/-- What a lambda returns belongs to no template. -/
theorem expand (remaining : Nat) {f : Lambda}
    (hf : ∀ body failure, f.call body = .error failure → G failure) (body : String) :
    FailsNaming sink G P (Setup.expand remaining f body) := by
  refine Keeps.composes.bind_self (calling fun _ => hf body) fun text => ?_
  dsimp only
  split
  · exact Keeps.composes.pure _
  · exact Keeps.reject (.inl nofun)

end Run.FailsNaming

namespace Setup

variable {setup : Setup} {limit depth n : Nat} {walks : List Walk} {s s' : Session}
  {failure : Failure} {identifier : String} {context : Datum} {sink : Sink} {G : Failure → Prop}

theorem Refuses.names (h : setup.Refuses identifier failure) :
    failure.Names fun _ name => name = identifier := by
  have hnamed {e : TemplateError} (he : e.identifier = some identifier) :
      (Failure.template e).Names fun _ name => name = identifier := by
    rintro name hname
    exact (Option.some.inj (he.symm.trans hname)).symm
  cases h with
  | unavailable hload =>
    obtain rfl | ⟨maxSize, rfl⟩ | ⟨place, fault, rfl⟩ | ⟨fault, rfl⟩ | ⟨fault, rfl⟩ :=
      Loader.load_eq_error hload
    · exact hnamed rfl
    · exact hnamed rfl
    · exact hnamed rfl
    · trivial
    · trivial
  | undecodable | unknownEncoding | malformed => exact hnamed rfl

theorem failsNaming_fetch (setup : Setup) (sink : Sink) (G : Failure → Prop)
    (identifier : String) :
    (setup.fetch identifier).FailsNaming sink G fun _ name => name = identifier := by
  have hlimit (s : Session) : (setup.fetch identifier s).2.sink.limit = s.sink.limit :=
    congrArg Sink.limit (setup.fetch_sink identifier s)
  refine fun s hs => ⟨(hlimit s).trans hs, fun failure hfailure => .inl ?_⟩
  cases hfind : s.cache.find? identifier with
  | some t =>
    rw [fetch_of_find?_eq_some hfind] at hfailure
    cases hfailure
  | none =>
    cases hcompiled : setup.compiled identifier with
    | ok t =>
      rw [fetch_of_compiled_eq_ok hfind hcompiled] at hfailure
      cases hfailure
    | error failure' =>
      rw [fetch_of_compiled_eq_error hfind hcompiled] at hfailure
      cases hfailure
      exact (refuses_of_compiled hcompiled).names

/-- A node names the template that it includes, or the field of a section for which no level
is left, unless its contexts or the sink raise what it fails with. -/
theorem failsNaming_visit (setup : Setup) (limit depth : Nat) {c : Contexts}
    (hc : ∀ failure, c.Raises failure → G failure)
    (hsink : ∀ failure, sink.Raises failure → G failure) (node : Node) :
    (setup.visit limit depth c node).FailsNaming sink G fun e name =>
      node = .inclusion name ∨ limit ≤ depth ∧ e = tooDeep limit name ∧
        ∃ sense body children, node = .block sense name body children := by
  cases node with
  | text content =>
    exact Run.Keeps.composes.bind_self (Run.FailsNaming.write hsink content) fun _ =>
      Run.Keeps.composes.pure _
  | field name =>
    refine Run.Keeps.composes.bind_self
      (Run.FailsNaming.calling ((c.failsAs_text name).mono hc)) fun text => ?_
    exact Run.Keeps.composes.bind_self (Run.FailsNaming.write hsink text) fun _ =>
      Run.Keeps.composes.pure _
  | inclusion name =>
    rw [visit]
    split
    · refine Run.Keeps.reject (.inl ?_)
      rintro _ ⟨⟩
      exact .inl rfl
    · refine Run.Keeps.composes.bind_self (fun s hs => ?_) fun t => Run.Keeps.composes.pure _
      obtain ⟨hend, hfailure⟩ := setup.failsNaming_fetch sink G name s hs
      refine ⟨hend, fun failure h => (hfailure failure h).imp_left fun hnames => ?_⟩
      cases failure with
      | template e => exact fun other hother => .inl (hnames other hother ▸ rfl)
      | raised fault => trivial
      | path fault => trivial
      | bytes fault => trivial
  | block sense name body children =>
    rw [visit]
    split
    · rename_i hfull
      refine Run.Keeps.reject (.inl ?_)
      rintro _ ⟨⟩
      exact .inr ⟨hfull, rfl, sense, body, children, rfl⟩
    · split
      · exact Run.Keeps.composes.pure _
      · rename_i f hshowing
        exact Run.Keeps.composes.bind_self (Run.FailsNaming.expand _
          (fun body failure h => hc failure (Contexts.raises_of_expansion hshowing h)) _)
          fun _ => Run.Keeps.composes.pure _

/-! ### The step that fails -/

theorem exists_visit_of_advance (h : setup.advance limit walks s = (.error failure, s')) :
    ∃ depth c node nodes around, walks = ⟨depth, c, [], node :: nodes⟩ :: around ∧
      setup.visit limit depth c node s = (.error failure, s') := by
  match walks with
  | [] => cases h
  | ⟨depth, c, next :: inner, nodes⟩ :: around => cases h
  | ⟨depth, c, [], node :: nodes⟩ :: around =>
    refine ⟨depth, c, node, nodes, around, rfl, ?_⟩
    rw [advance, Run.bind_apply] at h
    split at h
    · cases h
    · rename_i hvisit
      cases h
      exact hvisit
  | ⟨_, _, [], []⟩ :: around => cases h

theorem limit_advance (setup : Setup) (limit : Nat) (walks : List Walk) (s : Session) :
    (setup.advance limit walks s).2.sink.limit = s.sink.limit := by
  match walks with
  | [] | ⟨_, _, _ :: _, _⟩ :: _ | ⟨_, _, [], []⟩ :: _ => rfl
  | ⟨depth, c, [], node :: nodes⟩ :: around =>
    have hvisit := setup.failsNaming_visit limit depth (fun _ (_ : c.Raises _) => trivial)
      (fun _ (_ : s.sink.Raises _) => trivial) node s rfl
    rw [advance, Run.bind_pure_apply]
    exact hvisit.1

/-- Where the steps fail, the last one visited a node to which those before it had come, with
the same sink. -/
theorem exists_visit_of_advances (h : setup.advances limit n walks s = (.error failure, s')) :
    ∃ m depth c node nodes around s₁,
      setup.advances limit m walks s = (.ok (⟨depth, c, [], node :: nodes⟩ :: around), s₁) ∧
      s₁.sink.limit = s.sink.limit ∧ setup.visit limit depth c node s₁ = (.error failure, s') := by
  induction n generalizing walks s with
  | zero => cases h
  | succ n ih =>
    rw [advances, Run.bind_apply] at h
    split at h
    · rename_i walks₁ s₁ hstep
      have hlimit := setup.limit_advance limit walks s
      rw [hstep] at hlimit
      obtain ⟨m, depth, c, node, nodes, around, s₂, hm, hsink, hvisit⟩ := ih h
      refine ⟨m + 1, depth, c, node, nodes, around, s₂, ?_, hsink.trans hlimit, hvisit⟩
      rw [advances, Run.bind_apply, hstep]
      exact hm
    · rename_i hstep
      cases h
      obtain ⟨depth, c, node, nodes, around, rfl, hvisit⟩ := exists_visit_of_advance hstep
      exact ⟨0, depth, c, node, nodes, around, s, rfl, rfl, hvisit⟩

/-- A render that fails in one of its steps has come to a node and fails in visiting it, unless
its context cannot be bound, or is refused, or its template is. -/
theorem renderSteps_eq_error (h : (setup.renderSteps n identifier context s).1 = .error failure) :
    (failure.Names fun _ name => name = identifier) ∨ context.Raises failure ∨
    ∃ m depth c node nodes around s₁ s₂ s₃,
      setup.renderSteps m identifier context s =
        (.ok (⟨depth, c, [], node :: nodes⟩ :: around), s₁) ∧
      s₂.sink.limit = s.sink.limit ∧
      setup.visit setup.maxDepth depth c node s₂ = (.error failure, s₃) := by
  match hbind : context.bind with
  | .error unbound =>
    simp only [renderSteps, hbind] at h
    cases h
    exact .inr (.inl (by rw [Datum.Raises, hbind]))
  | .ok (.record fields) =>
    simp only [renderSteps, hbind, Run.log, Run.modify_bind_apply] at h ⊢
    have hstart : s.sink.limit =
        { s with events := s.events.push (.renderStarted identifier) }.sink.limit := rfl
    rw [hstart]
    generalize { s with events := s.events.push (.renderStarted identifier) } = s at h ⊢
    have hreported {α : Type} (r : Run α) := Run.exists_reporting_apply s identifier r
    obtain ⟨_, heq⟩ := hreported (setup.fetch identifier >>= fun t =>
      setup.advances setup.maxDepth n [⟨0, ⟨.record fields, none⟩, [], t.nodes⟩])
    rw [heq, Run.bind_apply] at h
    have hlimit := congrArg Sink.limit (setup.fetch_sink identifier s)
    have hnames := setup.failsNaming_fetch s.sink (fun _ => False) identifier s rfl
    cases hfetch : setup.fetch identifier s with
    | mk result s₁ =>
      rw [hfetch] at h hlimit hnames
      cases result with
      | error failure' =>
        cases h
        exact .inl ((hnames.2 failure rfl).resolve_right id)
      | ok t =>
        obtain ⟨m, depth, c, node, nodes, around, s₂, hm, hsink, hvisit⟩ :=
          exists_visit_of_advances (Prod.ext h rfl)
        obtain ⟨events, heq⟩ := hreported (setup.fetch identifier >>= fun t =>
          setup.advances setup.maxDepth m [⟨0, ⟨.record fields, none⟩, [], t.nodes⟩])
        refine .inr (.inr ⟨m, depth, c, node, nodes, around, { s₂ with events := events }, s₂, _,
          ?_, hsink.trans hlimit, hvisit⟩)
        rw [heq, Run.bind_apply, hfetch]
        simp only [hm]
  | .ok (.bool _) | .ok (.seq _) | .ok (.text _) | .ok (.scalar _) | .ok (.lambda _)
  | .ok .absent =>
    simp only [renderSteps, hbind] at h
    cases h
    exact .inl (by rintro _ ⟨⟩; rfl)

end Setup

/-! ### Renders -/

namespace Engine

/-- A render comes to a node: after some steps it is the next one of the innermost walk under
way, which has this depth. -/
def Meets (engine : Engine) (identifier : String) (context : Datum) (sink : Sink) (depth : Nat)
    (node : Node) : Prop :=
  ∃ n c nodes around session, engine.run sink (·.renderSteps n identifier context) =
    (.ok (⟨depth, c, [], node :: nodes⟩ :: around), session)

variable {engine : Engine} {identifier name : String} {context : Datum} {sink : Sink}
  {e : TemplateError}

/-- A sink that refuses to write by an error with a name was given this error. -/
theorem exists_limit_of_raises (h : sink.Raises (.template e)) (hname : e.identifier = some name) :
    ∃ writes, sink.limit = some (writes, .template e) := by
  obtain ⟨writes, raised, hlimit, heq⟩ := h
  rw [Failure.ofWriting] at heq
  split at heq
  · split at heq
    · cases heq
      cases hname
    · exact ⟨writes, heq ▸ hlimit⟩
  · exact ⟨writes, heq ▸ hlimit⟩

/-- An error of a render that gives a name gives that of the template that was to be rendered,
or that of a template to whose inclusion the render came. A section to which it came on the
deepest level is refused by the name of its field. All other errors with a name are those that
an object of the caller raised: the context when it was bound or shown, a lambda of it, or the
sink. -/
theorem render_error_named
    (h : (engine.outcome (.render identifier context sink)).result = .error (.template e))
    (hname : e.identifier = some name) :
    name = identifier ∨
    (∃ depth, engine.Meets identifier context sink depth (.inclusion name)) ∨
    (e = Setup.tooDeep engine.setup.maxDepth name ∧ ∃ sense body children,
      engine.Meets identifier context sink engine.setup.maxDepth
        (.block sense name body children)) ∨
    context.Raises (.template e) ∨ ∃ writes, sink.limit = some (writes, .template e) := by
  obtain ⟨hshape, n, result, session, hsteps, houtcome⟩ :=
    render_stepwise engine identifier context sink
  rw [houtcome] at h
  obtain rfl : result = .error (.template e) := by
    cases result with
    | error failure => simpa [Except.map] using h
    | ok _ => cases h
  rcases Setup.renderSteps_eq_error (congrArg Prod.fst hsteps) with
    hstart | hraises | ⟨m, depth, c, node, nodes, around, s₁, s₂, s₃, hm, hsink, hvisit⟩
  · exact .inl (hstart name hname)
  · exact .inr (.inr (.inr (.inl hraises)))
  have hwalk := (Setup.yields_renderSteps engine.setup m identifier context _ _ s₁ hm).proper _
    List.mem_cons_self
  have hfails := engine.setup.failsNaming_visit engine.setup.maxDepth depth
    (fun failure h => (Or.inl (hwalk.sound.raises failure h) :
      context.Raises failure ∨ sink.Raises failure)) (fun _ => .inr) node s₂ hsink
  obtain hnames | hraises | hraises := hfails.2 _ (congrArg Prod.fst hvisit)
  · obtain rfl | ⟨hfull, he, sense, body, children, rfl⟩ := hnames name hname
    · exact .inr (.inl ⟨depth, m, c, nodes, around, s₁, hm⟩)
    · obtain rfl : depth = engine.setup.maxDepth := Nat.le_antisymm hwalk.depth_le hfull
      exact .inr (.inr (.inl ⟨he, sense, body, children, m, c, nodes, around, s₁, hm⟩))
  · exact .inr (.inr (.inr (.inl hraises)))
  · exact .inr (.inr (.inr (.inr (exists_limit_of_raises hraises hname))))

/-- An engine over a source that includes one without a source. -/
def danglingInclusion : Engine :=
  fresh ⟨.memory [("a", .bytes [123, 123, 62, 98, 125, 125])] 9, "u8", 3⟩

theorem render_error_named_danglingInclusion :
    (danglingInclusion.outcome (.render "a" (.ofFields []) .unlimited)).result =
      .error (Loader.notFound "b") ∧
    ("b" = "a" ∨
      (∃ depth, danglingInclusion.Meets "a" (.ofFields []) .unlimited depth (.inclusion "b")) ∨
      ({ trouble := .notFound, identifier := some "b" } =
          Setup.tooDeep danglingInclusion.setup.maxDepth "b" ∧ ∃ sense body children,
        danglingInclusion.Meets "a" (.ofFields []) .unlimited danglingInclusion.setup.maxDepth
          (.block sense "b" body children)) ∨
      (Datum.ofFields []).Raises (Loader.notFound "b") ∨
      ∃ writes, Sink.unlimited.limit = some (writes, Loader.notFound "b")) := by
  have hresult : (danglingInclusion.outcome (.render "a" (.ofFields []) .unlimited)).result =
      .error (Loader.notFound "b") := by cbv
  exact ⟨hresult, render_error_named hresult rfl⟩

/-- An engine with a single level, over a source that includes one with a section. -/
def sectionTooDeep : Engine :=
  fresh ⟨.memory [("a", .bytes [123, 123, 62, 98, 125, 125]),
    ("b", .bytes [123, 123, 35, 115, 125, 125, 123, 123, 47, 115, 125, 125])] 99, "u8", 1⟩

/-- The walks under way in a render of the source that includes the other one, before each of
its steps; the third step fails. -/
def sectionTooDeepWalks : Nat → List Walk
  | 0 => [⟨0, ⟨.record [], none⟩, [], [.inclusion "b"]⟩]
  | 1 => [⟨0, ⟨.record [], none⟩, [(⟨.record [], none⟩, [.block .normal "s" "" []])], []⟩]
  | _ => [⟨1, ⟨.record [], none⟩, [], [.block .normal "s" "" []]⟩, ⟨0, ⟨.record [], none⟩, [], []⟩]

theorem renderSteps_sectionTooDeep (n : Nat) :
    (sectionTooDeep.run .unlimited (·.renderSteps n "a" (.ofFields []))).1 =
      if n < 3 then .ok (sectionTooDeepWalks n)
      else .error (.template (Setup.tooDeep 1 "s")) := by
  have ha : sectionTooDeep.setup.compiled "a" = .ok ⟨"a", "\x7b\x7b>b\x7d\x7d", [.inclusion "b"]⟩ :=
    Setup.compiled_eq_ok_iff.2 ⟨rfl, _, rfl, by cbv, by with_unfolding_all rfl⟩
  have hb : sectionTooDeep.setup.compiled "b" =
      .ok ⟨"b", "\x7b\x7b#s\x7d\x7d\x7b\x7b/s\x7d\x7d", [.block .normal "s" "" []]⟩ :=
    Setup.compiled_eq_ok_iff.2 ⟨rfl, _, rfl, by cbv, by with_unfolding_all rfl⟩
  have hrest (s : Session) (hs : s.cache.find? "b" = none) :
      (sectionTooDeep.setup.advances 1 n (sectionTooDeepWalks 0) s).1 =
        if n < 3 then .ok (sectionTooDeepWalks n)
        else .error (.template (Setup.tooDeep 1 "s")) := by
    have hstep : sectionTooDeep.setup.advance 1 (sectionTooDeepWalks 0) s =
        (.ok (sectionTooDeepWalks 1), (sectionTooDeep.setup.fetch "b" s).2) := by
      change (sectionTooDeep.setup.fetch "b" >>= _ >>= _) s = _
      rw [bind_assoc, Run.bind_apply, Setup.fetch_of_compiled_eq_ok hs hb]
      rfl
    cases n with
    | zero => rfl
    | succ n =>
      rw [Setup.advances, Run.bind_apply, hstep]
      rcases n with _ | _ | n <;> rfl
  change (Setup.reporting "a" _ _).1 = _
  obtain ⟨_, hreporting⟩ := Run.exists_reporting_apply _ "a" _
  rw [hreporting, Run.bind_apply, Setup.fetch_of_compiled_eq_ok rfl ha]
  exact hrest _ (by rfl)

/-- The error names the field `s`, of which there is no template and which nothing includes. -/
theorem render_error_sectionTooDeep :
    (sectionTooDeep.outcome (.render "a" (.ofFields []) .unlimited)).result =
      .error (.template (Setup.tooDeep 1 "s")) ∧ "s" ≠ "a" ∧
    ∀ depth, ¬ sectionTooDeep.Meets "a" (.ofFields []) .unlimited depth (.inclusion "s") := by
  refine ⟨?_, by decide, ?_⟩
  · obtain ⟨-, n, result, session, hend, houtcome⟩ :=
      render_stepwise sectionTooDeep "a" (.ofFields []) .unlimited
    have hsteps := (renderSteps_sectionTooDeep n).symm.trans (congrArg Prod.fst hend)
    rw [houtcome]
    match n, result with
    | n + 3, .error failure =>
      cases hsteps
      rfl
    | n + 3, .ok _ | 0, .error _ | 1, .error _ | 2, .error _ => cases hsteps
    | 0, .ok _ | 1, .ok _ | 2, .ok _ => cases hsteps
  · rintro depth ⟨n, c, nodes, around, session, h⟩
    have hsteps := (renderSteps_sectionTooDeep n).symm.trans (congrArg Prod.fst h)
    match n with
    | 0 => simp [sectionTooDeepWalks] at hsteps
    | 1 | 2 | n + 3 => cases hsteps

end Engine

end Mustache
