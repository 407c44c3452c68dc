import Mathlib.Data.List.Basic
import Mustache.Value.Bind

/-! What binding finds a datum to be. Of all that a datum is only the first in the order of asking
counts. Main results: binding a datum is binding it as this, and an induction over data that goes
into what is found there and nowhere else. -/

namespace Mustache

/-- The data inside. -/
def Nature.children : Nature → List Datum
  | .mapping entries => entries.map Prod.snd
  | .model fields | .dataclass fields => fields.map Prod.snd
  | .sequence items => items
  | .unreadable _ | .bound _ | .none | .bool _ | .text _ | .bytes _ | .lambda _ => []

namespace Datum

/-- What a datum is for binding: of all that it is, the first in the order of asking. It is a
scalar if it is nothing else. -/
def nature? : Datum → Option Nature
  | .object _ natures _ => foremost Nature.rank natures

def scalar : Datum → Scalar
  | .object _ _ scalar => scalar

end Datum

section Foremost

variable {α β : Type} {rank : α → Nat} {as : List α} {a : α}

theorem mem_of_foremost (h : foremost rank as = some a) : a ∈ as := by
  induction as generalizing a with
  | nil => cases h
  | cons first rest ih =>
    rw [foremost] at h
    cases hrest : foremost rank rest with
    | none =>
      rw [hrest] at h
      cases h
      exact List.mem_cons_self
    | some later =>
      rw [hrest] at h
      dsimp only at h
      split at h <;> cases h
      · exact List.mem_cons_self
      · exact List.mem_cons_of_mem _ (ih hrest)

end Foremost

theorem Nature.sizeOf_lt_of_mem_children {nature : Nature} {d : Datum}
    (h : d ∈ nature.children) : sizeOf d < sizeOf nature := by
  have hpair {α : Type} [SizeOf α] {entries : List (α × Datum)}
      (h : d ∈ entries.map Prod.snd) : sizeOf d < sizeOf entries := by
    obtain ⟨⟨a, inner⟩, hmem, heq⟩ := List.mem_map.1 h
    obtain rfl : inner = d := heq
    have hlt := List.sizeOf_lt_of_mem hmem
    simp only [Prod.mk.sizeOf_spec] at hlt
    omega
  cases nature with
  | mapping entries =>
    have hlt := hpair h
    simp only [mapping.sizeOf_spec]
    omega
  | model fields =>
    have hlt := hpair h
    simp only [model.sizeOf_spec]
    omega
  | dataclass fields =>
    have hlt := hpair h
    simp only [dataclass.sizeOf_spec]
    omega
  | sequence items =>
    have hlt : sizeOf d < sizeOf items := List.sizeOf_lt_of_mem h
    simp only [sequence.sizeOf_spec]
    omega
  | _ => cases h

namespace Datum

variable {d : Datum} {nature : Nature}

theorem sizeOf_lt_of_nature? (h : d.nature? = some nature) : sizeOf nature < sizeOf d := by
  obtain ⟨typeName, natures, scalar⟩ := d
  have hlt := List.sizeOf_lt_of_mem (mem_of_foremost h)
  simp only [object.sizeOf_spec]
  omega

/-- Induction over a datum, with the data inside of what it is for binding at once. -/
theorem induction {P : Datum → Prop}
    (inside : ∀ d, (∀ nature, d.nature? = some nature → ∀ inner ∈ nature.children, P inner) → P d)
    (d : Datum) : P d :=
  inside d fun nature hnature inner hinner =>
    have := Nat.lt_trans (Nature.sizeOf_lt_of_mem_children hinner) (sizeOf_lt_of_nature? hnature)
    induction inside inner
termination_by sizeOf d

end Datum

end Mustache
