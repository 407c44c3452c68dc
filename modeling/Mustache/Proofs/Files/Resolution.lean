import Mustache.Files.Canonical

/-! Where a path leads while no link on its way leads back to itself. `FileTree.Leads`
says so by the names and the links alone, without notes of the links met and without a
bound on them; it leads to one place only, and that place is canonical. Resolution finds
this place, unless it comes to a name that cannot be looked up or to more links within each
other than it can follow: a link that is being followed takes more steps than all that is
still ahead, so it is not met again. -/

namespace Mustache.Files

/-- A name that leads further down. -/
def IsEntryName (name : String) : Prop := isIdle name = false ∧ name ≠ ".."

instance (name : String) : Decidable (IsEntryName name) := inferInstanceAs (Decidable (_ ∧ _))

namespace FileTree

/-- A place that no link and no dots are on the way to. -/
def IsCanonical (tree : FileTree) (place : Place) : Prop :=
  ∀ above name, above ++ [name] <+: place →
    IsEntryName name ∧ ∀ target, tree.entry? (above ++ [name]) ≠ some (.link target)

/-- Names lead from a place to another in a number of steps. A link takes the steps of
its target and one more. -/
inductive Leads (tree : FileTree) : Nat → Place → List String → Place → Prop
  | done {place} : Leads tree 0 place [] place
  | idle {n place name rest out} (hi : isIdle name = true) (h : Leads tree n place rest out) :
      Leads tree (n + 1) place (name :: rest) out
  | up {n place rest out} (h : Leads tree n place.dropLast rest out) :
      Leads tree (n + 1) place (".." :: rest) out
  | plain {n place name rest out} (hn : IsEntryName name)
      (hp : ∀ target, tree.entry? (place ++ [name]) ≠ some (.link target))
      (h : Leads tree n (place ++ [name]) rest out) : Leads tree (n + 1) place (name :: rest) out
  | link {m n place name rest target middle out} (hn : IsEntryName name)
      (hl : tree.entry? (place ++ [name]) = some (.link target))
      (hf : Leads tree m (if isRooted target then [] else place) (splitSlashes target) middle)
      (h : Leads tree n middle rest out) : Leads tree (m + n + 1) place (name :: rest) out

/-- A link can be followed to a place in a number of steps. -/
def Follows (tree : FileTree) (n : Nat) (link out : Place) : Prop :=
  ∃ place name target, link = place ++ [name] ∧ tree.entry? link = some (.link target) ∧
    tree.Leads n (if isRooted target then [] else place) (splitSlashes target) out

variable {tree : FileTree} {place out : Place} {names : List String} {n : Nat}

theorem isCanonical_root : tree.IsCanonical [] := by
  intro above name h
  simp at h

theorem IsCanonical.above {above : Place} (h : tree.IsCanonical place) (ha : above <+: place) :
    tree.IsCanonical above :=
  fun front name hf => h front name (hf.trans ha)

theorem IsCanonical.append {name : String} (h : tree.IsCanonical place) (hn : IsEntryName name)
    (hp : ∀ target, tree.entry? (place ++ [name]) ≠ some (.link target)) :
    tree.IsCanonical (place ++ [name]) := by
  intro above last hl
  rcases List.prefix_concat_iff.mp hl with heq | hl
  · obtain ⟨rfl, hlast⟩ := List.append_inj' heq rfl
    cases hlast
    exact ⟨hn, hp⟩
  · exact h above last hl

theorem IsCanonical.next {name : String} {rest : List String}
    (h : tree.IsCanonical (place ++ name :: rest)) :
    IsEntryName name ∧ ∀ target, tree.entry? (place ++ [name]) ≠ some (.link target) :=
  h place name ⟨rest, by simp⟩

theorem not_isEntryName_of_isIdle {name : String} (h : isIdle name = true) :
    ¬ IsEntryName name := by
  simp [IsEntryName, h]

theorem not_isEntryName_up : ¬ IsEntryName ".." := by simp [IsEntryName]

theorem isIdle_up : isIdle ".." = false := by decide

theorem Leads.unique {m : Nat} {other : Place} (h : tree.Leads n place names out)
    (ho : tree.Leads m place names other) : n = m ∧ out = other := by
  induction h generalizing m other with
  | done =>
    cases ho
    exact ⟨rfl, rfl⟩
  | idle hi _ ih =>
    cases ho with
    | idle _ ho =>
      obtain ⟨rfl, rfl⟩ := ih ho
      exact ⟨rfl, rfl⟩
    | up ho => simp [isIdle_up] at hi
    | plain hn _ _ => exact absurd hn (not_isEntryName_of_isIdle hi)
    | link hn _ _ _ => exact absurd hn (not_isEntryName_of_isIdle hi)
  | up _ ih =>
    cases ho with
    | idle hi _ => simp [isIdle_up] at hi
    | up ho =>
      obtain ⟨rfl, rfl⟩ := ih ho
      exact ⟨rfl, rfl⟩
    | plain hn _ _ => exact absurd hn not_isEntryName_up
    | link hn _ _ _ => exact absurd hn not_isEntryName_up
  | plain hn hp _ ih =>
    cases ho with
    | idle hi _ => exact absurd hn (not_isEntryName_of_isIdle hi)
    | up ho => exact absurd hn not_isEntryName_up
    | plain _ _ ho =>
      obtain ⟨rfl, rfl⟩ := ih ho
      exact ⟨rfl, rfl⟩
    | link _ hl _ _ => exact absurd hl (hp _)
  | link hn hl _ _ ihf ih =>
    cases ho with
    | idle hi _ => exact absurd hn (not_isEntryName_of_isIdle hi)
    | up ho => exact absurd hn not_isEntryName_up
    | plain _ hp _ => exact absurd hl (hp _)
    | link _ hl' hf ho =>
      obtain rfl : _ = _ := Entry.link.inj (Option.some.inj (hl.symm.trans hl'))
      obtain ⟨rfl, rfl⟩ := ihf hf
      obtain ⟨rfl, rfl⟩ := ih ho
      exact ⟨rfl, rfl⟩

theorem Leads.isCanonical (h : tree.Leads n place names out) (hp : tree.IsCanonical place) :
    tree.IsCanonical out := by
  induction h with
  | done => exact hp
  | idle _ _ ih => exact ih hp
  | up _ ih => exact ih (hp.above (List.dropLast_prefix _))
  | plain hn hl _ ih => exact ih (hp.append hn hl)
  | link hn hl _ _ ihf ih =>
    refine ih (ihf ?_)
    split
    · exact isCanonical_root
    · exact hp

theorem Leads.follow {m : Nat} {middle : Place} {name : String} {rest : List String}
    (hn : IsEntryName name) (hf : tree.Follows m (place ++ [name]) middle)
    (h : tree.Leads n middle rest out) : tree.Leads (m + n + 1) place (name :: rest) out := by
  obtain ⟨above, last, target, heq, hl, hf⟩ := hf
  obtain ⟨rfl, hlast⟩ := List.append_inj' heq rfl
  cases hlast
  exact .link hn hl hf h

theorem exists_leads (hl : ∀ link target, tree.entry? link = some (.link target) →
      ∃ n out, tree.Follows n link out) (place : Place) (names : List String) :
    ∃ n out, tree.Leads n place names out := by
  induction names generalizing place with
  | nil => exact ⟨0, place, .done⟩
  | cons name rest ih =>
    by_cases hi : isIdle name = true
    · obtain ⟨n, out, h⟩ := ih place
      exact ⟨n + 1, out, .idle hi h⟩
    by_cases hu : name = ".."
    · subst hu
      obtain ⟨n, out, h⟩ := ih place.dropLast
      exact ⟨n + 1, out, .up h⟩
    have hn : IsEntryName name := ⟨by simpa using hi, hu⟩
    by_cases hp : ∃ target, tree.entry? (place ++ [name]) = some (.link target)
    · obtain ⟨target, ht⟩ := hp
      obtain ⟨m, middle, hf⟩ := hl _ _ ht
      obtain ⟨n, out, h⟩ := ih middle
      exact ⟨m + n + 1, out, .follow hn hf h⟩
    · obtain ⟨n, out, h⟩ := ih (place ++ [name])
      exact ⟨n + 1, out, .plain hn (fun target ht => hp ⟨target, ht⟩) h⟩

theorem Follows.unique {m : Nat} {link other : Place} (h : tree.Follows n link out)
    (ho : tree.Follows m link other) : n = m ∧ out = other := by
  obtain ⟨place, name, target, rfl, ht, hf⟩ := h
  obtain ⟨place', name', target', heq, ht', hf'⟩ := ho
  obtain ⟨rfl, -⟩ := List.append_inj' heq rfl
  cases ht.symm.trans ht'
  exact hf.unique hf'

def noted (met : Met) (link : Place) : Option (Option Place) :=
  (met.find? fun entry => entry.1 = link).map Prod.snd

theorem noted_cons (entry : Place × Option Place) (met : Met) (link : Place) :
    noted (entry :: met) link = if entry.1 = link then some entry.2 else noted met link := by
  by_cases h : entry.1 = link <;> simp [noted, h]

/-- Notes are right: links lead where it is noted, and those without a place are open. -/
structure Notes (tree : FileTree) (met : Met) (opened : List Place) : Prop where
  known : ∀ link out, noted met link = some (some out) → ∃ n, tree.Follows n link out
  pending : ∀ link, noted met link = some none → link ∈ opened

theorem Notes.start : Notes tree [] [] := ⟨by simp [noted], by simp [noted]⟩

theorem Notes.follow {met : Met} {opened : List Place} (h : Notes tree met opened) (link : Place) :
    Notes tree ((link, none) :: met) (link :: opened) where
  known other out ho := by
    rw [noted_cons] at ho
    split at ho
    · simp at ho
    · exact h.known other out ho
  pending other ho := by
    rw [noted_cons] at ho
    split at ho
    · rename_i heq
      simp [← heq]
    · exact List.mem_cons_of_mem _ (h.pending other ho)

theorem Notes.followed {met : Met} {opened : List Place} {link : Place}
    (h : Notes tree met (link :: opened)) (hf : tree.Follows n link out) :
    Notes tree ((link, some out) :: met) opened where
  known other out' ho := by
    rw [noted_cons] at ho
    split at ho
    · rename_i heq
      cases heq
      cases ho
      exact ⟨n, hf⟩
    · exact h.known other out' ho
  pending other ho := by
    rw [noted_cons] at ho
    split at ho
    · simp at ho
    · rename_i hne
      exact (List.mem_cons.mp (h.pending other ho)).resolve_left (Ne.symm hne)

/-- While `n` steps are ahead, each of the open links takes as many at least. -/
def Pending (tree : FileTree) (opened : List Place) (n : Nat) : Prop :=
  ∀ link ∈ opened, ∀ m out, tree.Follows m link out → n ≤ m

theorem Pending.start : Pending tree [] n := by simp [Pending]

theorem Pending.mono {opened : List Place} {m : Nat} (h : Pending tree opened n) (hm : m ≤ n) :
    Pending tree opened m :=
  fun link hl k out hf => Nat.le_trans hm (h link hl k out hf)

/-- A link that takes fewer steps than are ahead is not open. -/
theorem Pending.not_mem {opened : List Place} {link : Place} {m : Nat}
    (h : Pending tree opened n) (hf : tree.Follows m link out) (hm : m < n) : link ∉ opened :=
  fun hl => Nat.not_lt_of_le (h link hl m out hf) hm

theorem Pending.follow {opened : List Place} {link : Place} {m : Nat}
    (h : Pending tree opened n) (hf : tree.Follows m link out) (hm : m < n) :
    Pending tree (link :: opened) m := by
  intro other ho j out' hj
  rcases List.mem_cons.mp ho with rfl | ho
  · exact Nat.le_of_eq (hf.unique hj).1
  · exact Nat.le_trans (Nat.le_of_lt hm) (h other ho j out' hj)

theorem mem_entries_of_eq_some {entry : Entry} (h : tree.entry? place = some entry) :
    place = [] ∨ (place, entry) ∈ tree.entries := by
  unfold entry? at h
  split at h
  · exact .inl ‹_›
  · obtain ⟨⟨found, _⟩, hf, rfl⟩ := Option.map_eq_some_iff.mp h
    obtain rfl : found = place := by simpa using List.find?_some hf
    exact .inr (List.mem_of_find?_eq_some hf)

theorem mem_entries_of_link {link : Place} {target : String}
    (h : tree.entry? link = some (.link target)) : (link, .link target) ∈ tree.entries :=
  (mem_entries_of_eq_some h).resolve_left fun hroot => by simp [hroot, entry?] at h

variable {host : Host} {levels : Nat} {met : Met} {name : String} {rest : List String}

theorem resolveFrom_of_not_spells (hn : IsEntryName name) (hs : host.spells name = false) :
    tree.resolveFrom host levels place met (name :: rest) = .error .unspellable := by
  rw [resolveFrom, if_neg (by simp [hn.1]), if_neg hn.2, if_pos (by simp [hs])]

theorem resolveFrom_of_hasNul (hn : IsEntryName name) (hs : host.spells name = true)
    (hz : hasNul name = true) :
    tree.resolveFrom host levels place met (name :: rest) = .error .nulCharacter := by
  rw [resolveFrom, if_neg (by simp [hn.1]), if_neg hn.2, if_neg (by simp [hs]), if_pos hz]

theorem resolveFrom_plain (hn : IsEntryName name) (hs : host.spells name = true)
    (hz : hasNul name = false)
    (hp : ∀ target, tree.entry? (place ++ [name]) ≠ some (.link target)) :
    tree.resolveFrom host levels place met (name :: rest) =
      tree.resolveFrom host levels (place ++ [name]) met rest := by
  rw [resolveFrom, if_neg (by simp [hn.1]), if_neg hn.2, if_neg (by simp [hs]),
    if_neg (by simp [hz])]
  dsimp only
  split
  · rename_i target ht
    exact absurd ht (hp target)
  · rfl

theorem resolveFrom_link {target : String} (hn : IsEntryName name)
    (hs : host.spells name = true) (hz : hasNul name = false)
    (hl : tree.entry? (place ++ [name]) = some (.link target)) :
    tree.resolveFrom host levels place met (name :: rest) =
      match noted met (place ++ [name]) with
      | some (some known) => tree.resolveFrom host levels known met rest
      | some none => .ok ⟨applyRest (place ++ [name]) rest, false, met⟩
      | none =>
        match levels with
        | 0 => .error .linksTooDeep
        | levels + 1 =>
          match tree.resolveFrom host levels (if isRooted target then [] else place)
              ((place ++ [name], none) :: met) (splitSlashes target) with
          | .error fault => .error fault
          | .ok inner =>
            if inner.complete then
              tree.resolveFrom host (levels + 1) inner.place
                ((place ++ [name], some inner.place) :: inner.met) rest
            else .ok ⟨applyRest inner.place rest, false, inner.met⟩ := by
  rw [resolveFrom, if_neg (by simp [hn.1]), if_neg hn.2, if_neg (by simp [hs]),
    if_neg (by simp [hz])]
  simp only [hl]
  rfl

/-- Resolution itself never ends in a loop: behind one it takes the names as they are. -/
theorem resolveFrom_ne_linkLoop :
    tree.resolveFrom host levels place met names ≠ .error .linkLoop := by
  fun_induction resolveFrom tree host levels place met names with
  | case1 | case4 | case5 | case7 | case8 | case11 => exact nofun
  | case9 =>
    rename_i hinner ih
    exact fun h => ih (hinner.trans h)
  | case2 | case3 | case6 | case10 | case12 =>
    rename_i ih
    exact ih

/-- Resolution goes where the names lead, or it fails on its way. -/
theorem resolveFrom_of_leads (h : tree.Leads n place names out) :
    ∀ {levels : Nat} {met : Met} {opened : List Place}, Notes tree met opened →
      Pending tree opened n →
      (∃ fault, tree.resolveFrom host levels place met names = .error fault) ∨
        ∃ met', tree.resolveFrom host levels place met names = .ok ⟨out, true, met'⟩ ∧
          Notes tree met' opened := by
  induction h with
  | done =>
    intro levels met opened hn _
    exact .inr ⟨met, by rw [resolveFrom], hn⟩
  | idle hi _ ih =>
    intro levels met opened hn hp
    rw [resolveFrom, if_pos hi]
    exact ih hn (hp.mono (by omega))
  | up _ ih =>
    intro levels met opened hn hp
    rw [resolveFrom, isIdle_up, if_neg (by simp), if_pos rfl]
    exact ih hn (hp.mono (by omega))
  | @plain _ _ name _ _ he hl _ ih =>
    intro levels met opened hn hp
    cases hs : host.spells name with
    | false => exact .inl ⟨_, resolveFrom_of_not_spells he hs⟩
    | true =>
      cases hz : hasNul name with
      | true => exact .inl ⟨_, resolveFrom_of_hasNul he hs hz⟩
      | false =>
        rw [resolveFrom_plain he hs hz hl]
        exact ih hn (hp.mono (by omega))
  | @link _ _ _ name _ _ _ _ he hl hf _ ihf ih =>
    intro levels met opened hn hp
    cases hs : host.spells name with
    | false => exact .inl ⟨_, resolveFrom_of_not_spells he hs⟩
    | true =>
      cases hz : hasNul name with
      | true => exact .inl ⟨_, resolveFrom_of_hasNul he hs hz⟩
      | false =>
        have hfollows : tree.Follows _ _ _ := ⟨_, _, _, rfl, hl, hf⟩
        rw [resolveFrom_link he hs hz hl]
        -- The link is followed now, or it is known; it is not among those being followed.
        rcases hk : noted met _ with _ | _ | known
        · cases levels with
          | zero => exact .inl ⟨_, rfl⟩
          | succ levels =>
            rcases @ihf levels _ _ (hn.follow _) (hp.follow hfollows (by omega)) with
              ⟨fault, herr⟩ | ⟨met', heq, hn'⟩
            · exact .inl ⟨fault, by simp only [herr]⟩
            · simp only [heq, if_true]
              exact ih (hn'.followed hfollows) (hp.mono (by omega))
        · exact absurd (hn.pending _ hk) (hp.not_mem hfollows (by omega))
        · obtain ⟨_, hfk⟩ := hn.known _ _ hk
          obtain ⟨-, rfl⟩ := hfk.unique hfollows
          exact ih hn (hp.mono (by omega))

end FileTree

end Mustache.Files
