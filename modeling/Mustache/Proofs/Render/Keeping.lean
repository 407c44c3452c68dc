import Mustache.Proofs.Run

/-! Conditions that computations keep. A render keeps any condition on its session that does
not look at what has been written, called or reported. Main results: such a condition passes
through the building blocks of rendering, together with a bound on the failures that they may
end in; failures to write are among these unless the sink takes everything. -/

namespace Mustache

/-- What a write that a sink refuses ends in. -/
def Sink.Raises (sink : Sink) (failure : Failure) : Prop :=
  ∃ writes raised, sink.limit = some (writes, raised) ∧ failure = raised.ofWriting

theorem Sink.raises_of_failure? {sink present : Sink} {failure : Failure}
    (hlimit : present.limit = sink.limit) (h : present.failure? = some failure) :
    sink.Raises failure.ofWriting := by
  rw [failure?, hlimit] at h
  cases hraised : sink.limit with
  | none =>
    rw [hraised] at h
    cases h
  | some refusal =>
    rw [hraised] at h
    obtain ⟨writes, raised⟩ := refusal
    dsimp only at h
    split at h
    · cases h
      exact ⟨writes, failure, hraised, rfl⟩
    · cases h

/-- A condition that does not look at what has been written, called or reported. -/
structure Session.Unread (I : Session → Prop) : Prop where
  push : ∀ {s} text, I s → I { s with sink := s.sink.push text }
  calls : ∀ {s} calls, I s → I { s with calls := calls }
  events : ∀ {s} events, I s → I { s with events := events }

/-- Such a condition under which the sink takes everything. -/
structure Session.Unlimited (I : Session → Prop) : Prop extends Session.Unread I where
  limit : ∀ {s}, I s → s.sink.limit = none

/-- Started under the condition `I` a computation ends under it, and it fails only in ways
that `F` allows. -/
def Run.Keeps (I : Session → Prop) (F : Failure → Prop) {α : Type} (r : Run α) : Prop :=
  ∀ s, I s → I (r s).2 ∧ ∀ failure, (r s).1 = .error failure → F failure

namespace Run.Keeps

variable {I : Session → Prop} {F : Failure → Prop} {α β : Type}

theorem composes : Run.Composes fun _ r _ => Keeps I F r where
  pure _ _ hs := ⟨hs, fun _ h => nomatch h⟩
  bind {α β r r' f f'} hr hf s hs := by
    obtain ⟨hs', hfailure⟩ := hr s hs
    rw [Run.bind_apply]
    generalize r s = out at hs' hfailure ⊢
    obtain ⟨failure | a, s'⟩ := out
    · refine ⟨hs', ?_⟩
      rintro _ ⟨⟩
      exact hfailure failure rfl
    · exact hf a s' hs'

theorem throw {failure : Failure} (h : F failure) :
    Keeps I F (MonadExcept.throw failure : Run α) := by
  refine fun _ hs => ⟨hs, ?_⟩
  rintro _ ⟨⟩
  exact h

theorem reject {e : TemplateError} (h : F (.template e)) : Keeps I F (Run.reject e : Run α) :=
  throw h

section Unread

variable (hI : Session.Unread I)
include hI

theorem log (event : Event) : Keeps I F (Run.log event) :=
  fun _ hs => ⟨hI.events _ hs, fun _ h => nomatch h⟩

theorem write (hrefused : ∀ s failure, I s → s.sink.failure? = some failure → F failure.ofWriting)
    (text : String) : Keeps I F (Run.write text) := by
  intro s hs
  rw [Run.write_apply]
  split
  · exact ⟨hs, fun _ h => nomatch h⟩
  · split
    · exact ⟨hI.push text hs, fun _ h => nomatch h⟩
    · rename_i failure hfailure
      refine ⟨hs, ?_⟩
      rintro _ ⟨⟩
      exact hrefused s failure hs hfailure

theorem calling {c : Calling α} (hc : c.FailsAs F) : Keeps I F (Run.calling c) :=
  fun s hs => ⟨hI.calls _ hs, hc s.calls⟩

theorem reporting {r : Run α} (identifier : String) (hr : Keeps I F r) :
    Keeps I F (Setup.reporting identifier r) := by
  intro s hs
  obtain ⟨hs', hfailure⟩ := hr s hs
  obtain ⟨events, hreporting⟩ := Run.exists_reporting_apply s identifier r
  rw [hreporting]
  exact ⟨hI.events events hs', hfailure⟩

end Unread

section Unlimited

variable (hI : Session.Unlimited I)
include hI

theorem write_unlimited (text : String) : Keeps I F (Run.write text) := by
  refine write hI.toUnread (fun s failure hs hfailure => ?_) text
  rw [Sink.failure?, hI.limit hs] at hfailure
  cases hfailure

/-- Where what the context raises is allowed, and so are all template errors but failures to
write, the condition passes through renders as soon as it passes through fetches. -/
theorem congruence (htemplate : ∀ e : TemplateError, e.kind ≠ .renderIOFailure → F (.template e)) :
    Run.Congruence F fun _ r _ => Keeps I F r where
  toComposes := composes
  reject hkind := reject (htemplate _ hkind)
  throw h := throw h
  log event := log hI.toUnread event
  write text := write_unlimited hI text
  calling _ hc := calling hI.toUnread hc
  reporting identifier hr := reporting hI.toUnread identifier hr

end Unlimited

end Run.Keeps

end Mustache
