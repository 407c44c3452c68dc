/-! Entries under keys that are compared by an equality of their own, in the order in which
their keys were first set. Setting a key again keeps the key that is there and its place. -/

namespace Mustache.Keyed

variable {κ α : Type}

/-- Sets a key: in place if an equal one is there, else behind all others. -/
def put (same : κ → κ → Bool) (key : κ) (value : α) : List (κ × α) → List (κ × α)
  | [] => [(key, value)]
  | entry :: rest =>
    if same entry.1 key then (entry.1, value) :: rest else entry :: put same key value rest

/-- The entries that setting each key in turn leaves. -/
def ofList (same : κ → κ → Bool) (entries : List (κ × α)) : List (κ × α) :=
  entries.foldl (fun done entry => put same entry.1 entry.2 done) []

end Mustache.Keyed
