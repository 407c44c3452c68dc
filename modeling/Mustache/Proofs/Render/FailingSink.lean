import Mustache.Proofs.Engine.Refusal
import Mustache.Proofs.Render.Extension
import Mustache.Proofs.Render.Keeping

/-! Sinks that stop taking text. Main result: a sink that takes some writes and then raises a
failure at each further one cuts a render to what a sink without a limit receives first. The
render ends with the refused write. What lambdas raise is never made a failure to write. -/

namespace Mustache

open Template

/-- The session with a sink that takes `writes` writes in all and then raises `refusal`. -/
def Session.limited (writes : Nat) (refusal : Failure) (s : Session) : Session :=
  { s with sink := ⟨s.sink.written, some (writes, refusal)⟩ }

/-! ### Cut off at a write -/

/-- The first session is the second one with a sink that takes only `writes` writes, and
these are not yet exceeded. -/
structure Session.LimitedTo (writes : Nat) (refusal : Failure) (s s' : Session) : Prop where
  limited : s = s'.limited writes refusal
  unlimited : s'.sink.limit = none
  size_le : s'.sink.written.size ≤ writes

/-- The write that was refused first is behind the `writes` writes of the first session. -/
structure Session.CutOff (writes : Nat) (refusal : Failure) (failure : Failure) (s s' : Session) :
    Prop where
  failure : failure = refusal.ofWriting
  size : s.sink.written.size = writes
  size_lt : writes < s'.sink.written.size
  precedes : s.Precedes s'

/-- With a sink that takes only `writes` writes a computation does the same as with one that
takes everything, or is cut off at the first write beyond. -/
abbrev Run.CutsOff (writes : Nat) (refusal : Failure) {α : Type} (r : Run α) : Prop :=
  StopsShort (Session.LimitedTo writes refusal) (Session.CutOff writes refusal) r r

namespace Run.CutsOff

variable {writes : Nat} {refusal : Failure} {α : Type} {r : Run α}

theorem stopping (writes : Nat) (refusal : Failure) :
    Run.Stopping (Session.LimitedTo writes refusal) (Session.CutOff writes refusal) where
  report := by
    rintro _ s' event ⟨rfl, hlimit, hle⟩
    exact ⟨rfl, hlimit, hle⟩
  events _ h := ⟨h.failure, h.size, h.size_lt, h.precedes.withEvents ..⟩
  later h hs := by
    have hle := hs.written.length_le
    rw [Array.length_toList, Array.length_toList] at hle
    exact ⟨h.failure, h.size, h.size_lt.trans_le hle, h.precedes.trans hs⟩

theorem of_sink (h : ∀ s, (r s).2.sink = s.sink)
    (h' : ∀ s sink, r { s with sink := sink } = ((r s).1, { (r s).2 with sink := sink }))
    (hadds : Run.Extends r) : CutsOff writes refusal r where
  adds := hadds
  agrees := by
    rintro _ s ⟨rfl, hlimit, hle⟩
    have hsame : r (s.limited writes refusal) = ((r s).1, (r s).2.limited writes refusal) := by
      rw [Session.limited, h', Session.limited, h]
    rw [hsame]
    exact .inl ⟨rfl, rfl, by rwa [h], by rwa [h]⟩

theorem write (text : String) : CutsOff writes refusal (Run.write text) where
  adds := Extends.congruence.write text
  agrees := by
    rintro _ s ⟨rfl, hlimit, hle⟩
    have hnone : s.sink.failure? = none := by rw [Sink.failure?, hlimit]
    rw [Run.write_apply, Run.write_apply, hnone]
    split
    · exact .inl ⟨rfl, rfl, hlimit, hle⟩
    · obtain hlt | heq := hle.lt_or_eq
      · have htakes : (s.limited writes refusal).sink.failure? = none := if_neg hlt.not_ge
        rw [htakes]
        exact .inl ⟨rfl, rfl, hlimit, by simpa [Sink.push] using hlt⟩
      · have hrefuses : (s.limited writes refusal).sink.failure? = some refusal := if_pos heq.ge
        rw [hrefuses]
        refine .inr ⟨_, rfl, rfl, heq, by simp [Sink.push, heq], ?_⟩
        refine ⟨List.prefix_rfl, ?_, List.prefix_rfl, List.prefix_rfl⟩
        simp [Session.limited, Sink.push]

theorem congruence (writes : Nat) (refusal : Failure) :
    Run.Congruence (fun _ => True) fun _ r _ => CutsOff writes refusal r where
  pure a := of_sink (fun _ => rfl) (fun _ _ => rfl) (Extends.congruence.pure a)
  bind hr hf := (StopsShort.composes (stopping writes refusal)).bind hr hf
  reject hkind := of_sink (fun _ => rfl) (fun _ _ => rfl) (Extends.congruence.reject hkind)
  throw _ := of_sink (fun _ => rfl) (fun _ _ => rfl) (Extends.congruence.throw trivial)
  log event := of_sink (fun _ => rfl) (fun _ _ => rfl) (Extends.congruence.log event)
  write := write
  calling hc hF := of_sink (fun _ => rfl) (fun _ _ => rfl) (Extends.congruence.calling hc hF)
  reporting identifier hr := StopsShort.reporting (stopping writes refusal) identifier hr

theorem fetch (setup : Setup) (identifier : String) :
    CutsOff writes refusal (setup.fetch identifier) := by
  refine of_sink (setup.fetch_sink identifier) (fun s sink => ?_) (Extends.fetch setup identifier)
  rw [setup.fetch_frame identifier s sink s.calls]
  simp only [Setup.fetch_calls]

end Run.CutsOff

/-! ### Failures to write -/

variable {refusal : Failure}

theorem Failure.ofWriting_of_family_ne {fault : Fault} (hfault : refusal.fault? = some fault)
    (h : fault.family ≠ .other) :
    refusal.ofWriting = .template { trouble := .sink (some fault) } := by
  rw [ofWriting, hfault]
  exact if_pos (by simpa [Fault.stopsWriting] using h)

theorem Failure.ofWriting_eq_self
    (h : ∀ fault, refusal.fault? = some fault → fault.family = .other) :
    refusal.ofWriting = refusal := by
  rw [ofWriting]
  split
  · rename_i fault hfault
    exact if_neg (by simp [Fault.stopsWriting, h fault hfault])
  · rfl

/-- A source that cannot be loaded or compiled is no failure to write. -/
theorem Setup.Refuses.kind_ne {setup : Setup} {identifier : String} {e : TemplateError}
    (h : setup.Refuses identifier (.template e)) : e.kind ≠ .renderIOFailure := by
  cases h with
  | unavailable hload =>
    obtain hfailure | ⟨limit, hfailure⟩ | ⟨place, fault, hfailure⟩ | ⟨fault, hfailure⟩ |
      ⟨fault, hfailure⟩ := Loader.load_eq_error hload <;> cases hfailure <;> exact nofun
  | undecodable | unknownEncoding => exact nofun
  | @malformed source e => exact TemplateError.kind_ofSyntaxIn_ne source e

def Session.TakesAll (s : Session) : Prop := s.sink.limit = none

theorem Session.unlimited_takesAll : Session.Unlimited Session.TakesAll :=
  ⟨⟨fun _ h => h, fun _ h => h, fun _ h => h⟩, id⟩

/-- The failure is none to write, or the context itself has raised it. -/
def Datum.RaisesToWrite (context : Datum) (failure : Failure) : Prop :=
  ∀ e, failure = .template e → e.kind = .renderIOFailure → context.Raises (.template e)

theorem Setup.keeps_fetch (setup : Setup) (identifier : String) (context : Datum) :
    Run.Keeps Session.TakesAll context.RaisesToWrite (setup.fetch identifier) := by
  intro s hs
  refine ⟨(congrArg Sink.limit (setup.fetch_sink identifier s)).trans hs, ?_⟩
  rintro _ hresult e rfl hkind
  cases hfind : s.cache.find? identifier with
  | some t => simp [fetch_of_find?_eq_some hfind] at hresult
  | none =>
    cases hcompiled : setup.compiled identifier with
    | ok t => simp [fetch_of_compiled_eq_ok hfind hcompiled] at hresult
    | error failure =>
      obtain rfl : failure = .template e := by
        simpa [fetch_of_compiled_eq_error hfind hcompiled] using hresult
      exact absurd hkind (refuses_of_compiled hcompiled).kind_ne

/-- With a sink that takes everything a render does not end in a failure to write, unless its
context raises one. -/
theorem Setup.keeps_render (setup : Setup) (identifier : String) (context : Datum) :
    Run.Keeps Session.TakesAll context.RaisesToWrite (setup.render identifier context) := by
  refine (Run.Keeps.congruence Session.unlimited_takesAll fun e hkind => ?_).render_self
    (setup.keeps_fetch · context) identifier ?_
  · rintro _ ⟨⟩ hwriting
    exact absurd hwriting hkind
  · rintro _ hraises e rfl -
    exact hraises

namespace Engine

/-- A render with a sink that takes `writes` writes and then raises `refusal`, beside the same
render with a sink that takes everything. If the sink takes all that is written the two are
the same. Otherwise it has received the first `writes` writes, the render asked for, called
and cached no more than the other one and in the same order, and it ends in a failure to
write if the refusal is a fault that says so, and else in the refusal itself. What lambdas
raise never becomes a failure to write: where the sink raises nothing there is none that was
not raised as such. -/
theorem render_limited (engine : Engine) (identifier : String) (context : Datum) (writes : Nat)
    (refusal : Failure) :
    let full := engine.outcome (.render identifier context .unlimited)
    let cut := engine.outcome (.render identifier context (.limited writes refusal))
    (full.session.sink.written.size ≤ writes →
      cut.result = full.result ∧ cut.session = full.session.limited writes refusal) ∧
    (writes < full.session.sink.written.size →
      cut.session.sink.written.toList = full.session.sink.written.toList.take writes ∧
      cut.session.Precedes full.session ∧
      engine.cache.templates <+: cut.session.cache.templates ∧
      (∀ fault, refusal.fault? = some fault → fault.family ≠ .other →
        cut.result = .error (.template { trouble := .sink (some fault) })) ∧
      ((∀ fault, refusal.fault? = some fault → fault.family = .other) →
        cut.result = .error refusal)) ∧
    ∀ e, full.result = .error (.template e) → e.kind = .renderIOFailure →
      context.Raises (.template e) := by
  intro full cut
  have hcuts : Run.CutsOff writes refusal (engine.setup.render identifier context) :=
    (Run.CutsOff.congruence writes refusal).render_self (Run.CutsOff.fetch _) identifier
      fun _ _ => trivial
  have hstart : (Session.start engine.cache (.limited writes refusal)).LimitedTo writes refusal
      (.start engine.cache .unlimited) := ⟨rfl, rfl, Nat.zero_le _⟩
  have hcache : engine.cache.templates <+: cut.session.cache.templates :=
    (hcuts.adds (.start engine.cache (.limited writes refusal))).templates
  refine ⟨fun hle => ?_, fun hlt => ?_, fun e he hkind => ?_⟩
  · obtain ⟨hresult, hend⟩ | ⟨failure, -, hcut⟩ := hcuts.agrees _ _ hstart
    · exact ⟨congrArg (Except.map fun _ => none) hresult, hend.limited⟩
    · exact absurd hcut.size_lt hle.not_gt
  · obtain ⟨-, hend⟩ | ⟨failure, hresult, hcut⟩ := hcuts.agrees _ _ hstart
    · exact absurd hlt hend.size_le.not_gt
    · have htake := List.prefix_iff_eq_take.1 hcut.precedes.written
      rw [Array.length_toList, hcut.size] at htake
      rw [hcut.failure] at hresult
      have hresult : cut.result = .error refusal.ofWriting :=
        result_render_eq_error_iff.2 hresult
      refine ⟨htake, hcut.precedes, hcache, fun fault hfault hfamily => ?_, fun hother => ?_⟩
      · rw [hresult, Failure.ofWriting_of_family_ne hfault hfamily]
      · rw [hresult, Failure.ofWriting_eq_self hother]
  · obtain ⟨-, hfailure⟩ :=
      engine.setup.keeps_render identifier context (.start engine.cache .unlimited) rfl
    exact hfailure _ (result_render_eq_error_iff.1 he) e rfl hkind

/-- An engine over one source, the letter `x` and then a field. -/
def letterAndField : Engine :=
  fresh ⟨.memory [("a", .bytes [120, 123, 123, 102, 125, 125])] 9, "u8", 3⟩

/-- A fault of a sink behind which nobody reads any more. -/
def closedPipe : Fault := ⟨.inputOutput, "BrokenPipeError", "closed"⟩

theorem render_limited_second_write :
    1 < (letterAndField.outcome
      (.render "a" (.ofFields [("f", .ofText "y")]) .unlimited)).session.sink.written.size ∧
    (letterAndField.outcome
      (.render "a" (.ofFields [("f", .ofText "y")]) (.limited 1 (.raised closedPipe)))).result =
        .error (.template { trouble := .sink (some closedPipe) }) := by
  have hlt : 1 < (letterAndField.outcome
      (.render "a" (.ofFields [("f", .ofText "y")]) .unlimited)).session.sink.written.size := by
    have hwritten : (letterAndField.outcome (.render "a" (.ofFields [("f", .ofText "y")])
        .unlimited)).session.sink.written = #["x", "y"] := by cbv
    rw [hwritten]
    decide
  exact ⟨hlt, ((render_limited letterAndField "a" (.ofFields [("f", .ofText "y")]) 1
    (.raised closedPipe)).2.1 hlt).2.2.2.1 closedPipe rfl (by decide)⟩

end Engine

end Mustache
