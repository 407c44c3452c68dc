import Mustache.Proofs.Run

/-! Sessions only grow. Whatever a computation does, and however it ends, what was cached,
written, requested and called before stays there as it is, and new entries come behind it.
Main results: this holds of all that rendering is made of, fetches included, and so does a
relation to another computation that goes on where the first one has stopped short. -/

namespace Mustache

open Template

/-- All that had happened in `s` has also happened in `s'`, in the same order and in front
of anything else. -/
structure Session.Precedes (s s' : Session) : Prop where
  templates : s.cache.templates <+: s'.cache.templates
  written : s.sink.written.toList <+: s'.sink.written.toList
  requests : s.requests.toList <+: s'.requests.toList
  calls : s.calls.toList <+: s'.calls.toList

namespace Session.Precedes

variable {s s' s'' : Session}

theorem refl (s : Session) : s.Precedes s :=
  ⟨List.prefix_rfl, List.prefix_rfl, List.prefix_rfl, List.prefix_rfl⟩

theorem trans (h : s.Precedes s') (h' : s'.Precedes s'') : s.Precedes s'' :=
  ⟨h.templates.trans h'.templates, h.written.trans h'.written, h.requests.trans h'.requests,
    h.calls.trans h'.calls⟩

theorem withEvents (h : s.Precedes s') (events events' : Array Event) :
    Precedes { s with events := events } { s' with events := events' } :=
  ⟨h.templates, h.written, h.requests, h.calls⟩

end Session.Precedes

/-- Wherever a computation starts, it only adds to the session. -/
def Run.Extends {α : Type} (r : Run α) : Prop :=
  ∀ s : Session, s.Precedes (r s).2

namespace Run.Extends

theorem congruence : Run.Congruence (fun _ => True) fun _ r _ => Run.Extends r where
  pure _ s := .refl s
  reject _ s := .refl s
  throw _ s := .refl s
  log _ s := (Session.Precedes.refl s).withEvents ..
  bind {α β r r' f f'} hr hf s := by
    rw [Run.bind_apply]
    have hs := hr s
    generalize r s = out at hs ⊢
    obtain ⟨_ | a, s'⟩ := out
    · exact hs
    · exact hs.trans (hf a s')
  write text s := by
    rw [Run.write_apply]
    split
    · exact .refl s
    · split
      · refine ⟨List.prefix_rfl, ?_, List.prefix_rfl, List.prefix_rfl⟩
        simp [Sink.push]
      · exact .refl s
  calling {α c} hc _ s := by
    obtain ⟨result, added, hc⟩ := hc
    rw [Run.calling_apply, hc]
    refine ⟨List.prefix_rfl, List.prefix_rfl, List.prefix_rfl, ?_⟩
    simp
  reporting {α r r'} identifier hr s := by
    obtain ⟨events, hreporting⟩ := Run.exists_reporting_apply s identifier r
    rw [hreporting]
    exact (hr s).withEvents ..

theorem fetch (setup : Setup) (identifier : String) : Run.Extends (setup.fetch identifier) := by
  intro s
  cases hfind : s.cache.find? identifier with
  | some t =>
    rw [Setup.fetch_of_find?_eq_some hfind]
    exact (Session.Precedes.refl s).withEvents ..
  | none =>
    cases hcompiled : setup.compiled identifier with
    | ok t =>
      rw [Setup.fetch_of_compiled_eq_ok hfind hcompiled]
      refine ⟨List.prefix_append .., List.prefix_rfl, ?_, List.prefix_rfl⟩
      simp
    | error failure =>
      rw [Setup.fetch_of_compiled_eq_error hfind hcompiled]
      refine ⟨List.prefix_rfl, List.prefix_rfl, ?_, List.prefix_rfl⟩
      simp

end Run.Extends

/-! ### Stopping short -/

/-- Started in sessions that `R` relates, a computation does the same as another one and
ends in such sessions again, or it fails on its way, as `E` describes, where the other one
may go on and only adds to its session. -/
structure Run.StopsShort (R : Session → Session → Prop) (E : Failure → Session → Session → Prop)
    {α : Type} (r r' : Run α) : Prop where
  adds : Run.Extends r'
  agrees : ∀ s s', R s s' → ((r s).1 = (r' s').1 ∧ R (r s).2 (r' s').2) ∨
    ∃ failure, (r s).1 = .error failure ∧ E failure (r s).2 (r' s').2

/-- Related sessions may report the same event, and what describes a stop does not look at
the events and remains true while the other computation goes on. -/
structure Run.Stopping (R : Session → Session → Prop) (E : Failure → Session → Session → Prop) :
    Prop where
  report : ∀ {s s'} event, R s s' → R { s with events := s.events.push event }
    { s' with events := s'.events.push event }
  events : ∀ {failure s s'} events, E failure s s' → E failure { s with events := events } s'
  later : ∀ {failure s s' s''}, E failure s s' → s'.Precedes s'' → E failure s s''

namespace Run.StopsShort

variable {R : Session → Session → Prop} {E : Failure → Session → Session → Prop}

theorem composes (h : Stopping R E) : Run.Composes fun _ r r' => StopsShort R E r r' where
  pure a := ⟨Extends.congruence.pure a, fun _ _ hs => .inl ⟨rfl, hs⟩⟩
  bind {α β r r' f f'} hr hf := by
    refine ⟨Extends.congruence.bind_self hr.adds fun a => (hf a).adds, fun s s' hs => ?_⟩
    have hfirst := hr.agrees s s' hs
    rw [Run.bind_apply, Run.bind_apply]
    generalize r s = out, r' s' = out' at hfirst ⊢
    obtain ⟨result, t⟩ := out
    obtain ⟨result', t'⟩ := out'
    obtain ⟨hresult, ht⟩ | ⟨failure, hresult, hstop⟩ := hfirst
    · obtain rfl : result = result' := hresult
      cases result with
      | error failure => exact .inl ⟨rfl, ht⟩
      | ok a => exact (hf a).agrees t t' ht
    · -- stopped in the first part, while the other computation may go on with the second
      obtain rfl : result = .error failure := hresult
      refine .inr ⟨failure, rfl, ?_⟩
      cases result' with
      | error failure' => exact hstop
      | ok a => exact h.later hstop ((hf a).adds t')

theorem reporting (h : Stopping R E) {α : Type} {r r' : Run α} (identifier : String)
    (hr : StopsShort R E r r') :
    StopsShort R E (Setup.reporting identifier r) (Setup.reporting identifier r') := by
  refine ⟨Extends.congruence.reporting_self identifier hr.adds, fun s s' hs => ?_⟩
  obtain ⟨hresult, hend⟩ | ⟨failure, hresult, hstop⟩ := hr.agrees s s' hs
  · left
    unfold Setup.reporting
    generalize r s = out, r' s' = out' at hresult hend ⊢
    obtain ⟨result, t⟩ := out
    obtain ⟨result', t'⟩ := out'
    obtain rfl : result = result' := hresult
    obtain (e | f | fault | fault) | a := result
    · exact ⟨rfl, h.report _ hend⟩
    all_goals exact ⟨rfl, hend⟩
  · obtain ⟨events, hreporting⟩ := Run.exists_reporting_apply s identifier r
    obtain ⟨events', hreporting'⟩ := Run.exists_reporting_apply s' identifier r'
    rw [hreporting, hreporting']
    have hlater := (Session.Precedes.refl (r' s').2).withEvents (r' s').2.events events'
    exact .inr ⟨failure, hresult, h.events events (h.later hstop hlater)⟩

end Run.StopsShort

end Mustache
