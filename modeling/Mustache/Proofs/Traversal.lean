import Mathlib.Data.List.Forall2

/-! Computations that may fail, one after the other over a list. Main results: the list succeeds
just if each of its members does, and it fails only as one of them does. -/

namespace Mustache

variable {α β ε : Type} {f : α → Except ε β} {xs : List α} {ys : List β} {x : α} {e : ε}

theorem mapM_eq_ok_iff :
    xs.mapM f = .ok ys ↔ List.Forall₂ (fun x y => f x = .ok y) xs ys := by
  induction xs generalizing ys with
  | nil => cases ys <;> simp [pure, Except.pure]
  | cons x xs ih =>
    rw [List.mapM_cons]
    rcases hx : f x with e | y <;> rcases hxs : xs.mapM f with e' | ys' <;> cases ys <;>
      simp [bind, Except.bind, pure, Except.pure, ← ih, hx, hxs]

theorem exists_of_mapM_eq_error (h : xs.mapM f = .error e) : ∃ x ∈ xs, f x = .error e := by
  induction xs with
  | nil => cases h
  | cons x xs ih =>
    rw [List.mapM_cons] at h
    rcases hx : f x with e' | y <;> rw [hx] at h
    · cases h
      exact ⟨x, List.mem_cons_self, hx⟩
    · rcases hxs : xs.mapM f with e' | ys <;> rw [hxs] at h <;> cases h
      obtain ⟨z, hz, he⟩ := ih hxs
      exact ⟨z, List.mem_cons_of_mem _ hz, he⟩

end Mustache
