import Mustache.Config.Environment
import Mustache.Proofs.Config.Lookup
import Mustache.Proofs.Traversal

/-! What environment variables set. While no path of a variable leads on from that of another,
each value is found at the path of its variable; what else is found are the tables on the
way. Over another table they decide what is found at a path, unless a variable sets something
above or below it. -/

namespace Mustache.Config

open Data

def holdsSetting (name : String) : Bool := name.startsWith variablePrefix && name != variablePrefix

/-- Those of some variables that hold settings: for each its path of keys and its text. -/
def settingsAmong (fields : Environment) : List (List String × String) :=
  (fields.filter fun v => holdsSetting v.1).map fun v =>
    (pathOfVariable (v.1.drop variablePrefix.length).toString, v.2)

def settingVariables (environment : Environment) : List (List String × String) :=
  settingsAmong (Fields.ofList environment)

/-- No path of a variable is that of another, or leads on from it. -/
def PathsApart (environment : Environment) : Prop :=
  (settingVariables environment).Pairwise fun v w => Apart v.1 w.1

def assigned? (levels : Nat) (environment : Environment) (path : List String) : Option Document :=
  ((settingVariables environment).find? fun v => v.1 = path).bind fun v =>
    (inferValue levels v.2).toOption

def readVariable (levels : Nat) (v : List String × String) :
    Except ReadFailure (List String × Document) :=
  (inferValue levels v.2).map (v.1, ·)

def setAll (values : List (List String × Document)) (table : Table) : Table :=
  values.foldl (fun table v => setPath v.1 v.2 table) table

variable {levels : Nat} {environment : Environment} {values : List (List String × Document)}
  {table : Table}
  {p q front rest : List String} {v d : Document} {text : String} {override base : Table}

/-! ### Values of variables -/

theorem isList_of_items {dialect : Json.Dialect} {left fuel : Nat} {done : List Document}
    {chars behind : List Char} (h : Json.items dialect left fuel done chars = .ok (d, behind)) :
    ∃ items, d = .list items := by
  induction fuel generalizing done chars with
  | zero => rw [Json.items] at h; cases h
  | succ fuel ih =>
    rw [Json.items] at h
    split at h
    · cases h
    split at h
    · exact ih h
    · cases h
      exact ⟨_, rfl⟩
    · cases h

/-- What begins with a bracket is a list. -/
theorem isList_of_value {left fuel : Nat} {chars behind : List Char}
    (h : Json.value (Json.lenient levels) left fuel ('[' :: chars) = .ok (d, behind)) :
    ∃ items, d = .list items := by
  have hword : Json.word (Json.lenient levels) ('[' :: chars) = none := by
    simp [Json.word, Json.words, Json.lenient, Json.word?]
  unfold Json.value at h
  split at h
  · cases h
  simp only [hword] at h
  split at h
  · cases h
  · cases h
    exact ⟨[], rfl⟩
  · exact isList_of_items h

theorem isList_of_parse {chars : List Char}
    (h : Json.parse (Json.lenient levels) ('[' :: chars) = .ok d) :
    ∃ items, d = .list items := by
  unfold Json.parse at h
  split at h
  · cases h
  rename_i hvalue
  have hskip : Json.skipBlanks ('[' :: chars) = '[' :: chars := rfl
  rw [hskip] at hvalue
  split at h
  · cases h
    exact isList_of_value hvalue
  · cases h

theorem isList_of_inferList? (h : inferList? levels text = .ok (some d)) :
    ∃ items, d = .list items := by
  unfold inferList? at h
  split at h
  · rename_i hbrackets
    obtain ⟨chars, hchars⟩ : "[".toList <+: text.toList := by
      simpa using (Bool.and_eq_true_iff.mp hbrackets).1
    rw [← hchars] at h
    split at h
    · cases h
      exact isList_of_parse ‹_›
    · cases h
    · cases h
  · cases h

/-- A variable holds a truth value or an integer, or what its text is as a list. -/
theorem inferValue_cases (levels : Nat) (text : String) :
    (∃ b, inferValue levels text = .ok (.bool b)) ∨ (∃ i, inferValue levels text = .ok (.int i)) ∨
      inferValue levels text =
        (inferList? levels text).map fun found => found.getD (.text text) := by
  rw [inferValue]
  split
  · exact .inl ⟨true, rfl⟩
  split
  · exact .inl ⟨false, rfl⟩
  split
  · exact .inr (.inl ⟨_, rfl⟩)
  · exact .inr (.inr rfl)

theorem not_isTable_of_inferValue (h : inferValue levels text = .ok d) : ¬ d.IsTable := by
  rcases inferValue_cases levels text with ⟨_, hi⟩ | ⟨_, hi⟩ | hi
  · cases hi.symm.trans h
    exact nofun
  · cases hi.symm.trans h
    exact nofun
  rw [hi] at h
  rcases hl : inferList? levels text with failure | (_ | found) <;> rw [hl] at h <;> cases h
  · exact nofun
  · obtain ⟨items, rfl⟩ := isList_of_inferList? hl
    exact nofun

/-- A variable has a value unless it is a text in brackets that is beyond the reader of lists. -/
theorem parse_of_inferValue {failure : ReadFailure} (h : inferValue levels text = .error failure) :
    text.startsWith "[" ∧ text.endsWith "]" ∧
      Json.parse (Json.lenient levels) text.toList = .error failure ∧ failure ≠ .malformed := by
  rcases inferValue_cases levels text with ⟨_, hi⟩ | ⟨_, hi⟩ | hi
  · cases hi.symm.trans h
  · cases hi.symm.trans h
  have hlist : inferList? levels text = .error failure := by
    rw [hi] at h
    rcases hl : inferList? levels text with _ | _ <;> rw [hl] at h <;> cases h
    rfl
  unfold inferList? at hlist
  split at hlist
  · rename_i hbrackets
    obtain ⟨hstart, hend⟩ := Bool.and_eq_true_iff.mp hbrackets
    split at hlist
    · cases hlist
    · cases hlist
    · rename_i hne hparse
      cases hlist
      exact ⟨hstart, hend, hparse, hne⟩
  · cases hlist

/-! ### Setting all of them -/

/-- Reading an environment is to read the values of all variables, and then to set them. -/
theorem readEnvironment_eq (levels : Nat) (environment : Environment) :
    readEnvironment levels variablePrefix (Fields.ofList environment) =
      ((settingVariables environment).mapM (readVariable levels)).map (setAll · []) := by
  rw [readEnvironment, settingVariables]
  generalize Fields.ofList environment = fields
  generalize ([] : Table) = table
  induction fields generalizing table with
  | nil => rfl
  | cons v rest ih =>
    obtain ⟨name, text⟩ := v
    rw [List.foldlM_cons, settingsAmong, List.filter_cons]
    dsimp only
    cases hv : holdsSetting name <;> unfold holdsSetting at hv <;> rw [hv]
    · exact ih table
    · rw [if_pos rfl, if_pos rfl, List.map_cons, List.mapM_cons, ← settingsAmong]
      generalize pathOfVariable (name.drop variablePrefix.length).toString = path
      rw [show readVariable levels (path, text) = (inferValue levels text).map (path, ·) from rfl]
      rcases inferValue levels text with e | d
      · rfl
      · refine (ih _).trans ?_
        rcases (settingsAmong rest).mapM (readVariable levels) with e | values <;> rfl

theorem setAll_cons (v : List String × Document) :
    setAll (v :: values) table = setAll values (setPath v.1 v.2 table) := rfl

theorem lookup?_setAll_of_apart (h : ∀ v ∈ values, Apart v.1 q) (table : Table) :
    lookup? q (.table (setAll values table)) = lookup? q (.table table) := by
  induction values generalizing table with
  | nil => rfl
  | cons v values ih =>
    obtain ⟨hv, hvalues⟩ := List.forall_mem_cons.mp h
    rw [setAll_cons, ih hvalues, lookup?_setPath_of_apart hv]

theorem lookup?_setAll_of_mem (hp : values.Pairwise fun v w => Apart v.1 w.1)
    (hm : (p, d) ∈ values) (hne : p ≠ []) (table : Table) :
    lookup? p (.table (setAll values table)) = some d := by
  induction values generalizing table with
  | nil => cases hm
  | cons v values ih =>
    obtain ⟨hv, hvalues⟩ := List.pairwise_cons.mp hp
    rw [setAll_cons]
    rcases List.mem_cons.mp hm with rfl | hm
    · rw [lookup?_setAll_of_apart fun w hw => (hv w hw).symm]
      exact lookup?_setPath hne table
    · exact ih hvalues hm _

/-- Where no value is set there are only the tables on the way to values. -/
theorem isTable_of_lookup?_setAll (hv : ∀ v ∈ values, v.1 ≠ q ∧ ¬ v.2.IsTable)
    (ht : ∀ d, lookup? q (.table table) = some d → d.IsTable)
    (h : lookup? q (.table (setAll values table)) = some d) : d.IsTable := by
  induction values generalizing table with
  | nil => exact ht d h
  | cons v values ih =>
    obtain ⟨⟨hne, hvt⟩, hvalues⟩ := List.forall_mem_cons.mp hv
    rw [setAll_cons] at h
    exact ih hvalues (fun d hd => isTable_of_lookup?_setPath hne hvt ht hd) h

theorem wellKeyed_setAll (hv : ∀ v ∈ values, ¬ v.2.IsTable) (ht : WellKeyed (.table table)) :
    WellKeyed (.table (setAll values table)) := by
  induction values generalizing table with
  | nil => exact ht
  | cons v values ih =>
    obtain ⟨hvt, hvalues⟩ := List.forall_mem_cons.mp hv
    exact ih hvalues (ht.setPath (wellKeyed_of_not_isTable hvt) v.1)

/-- The settings of an environment that can be read are the values of its variables, each set
at the path of its variable. -/
theorem exists_values (h : readEnvironment levels variablePrefix (Fields.ofList environment) =
      .ok override) :
    ∃ values, override = setAll values [] ∧
      values.map Prod.fst = (settingVariables environment).map Prod.fst ∧
      (∀ w ∈ values, ∃ text, inferValue levels text = .ok w.2) ∧
      ∀ v ∈ settingVariables environment,
        ∃ d, inferValue levels v.2 = .ok d ∧ (v.1, d) ∈ values := by
  rw [readEnvironment_eq] at h
  rcases hm : (settingVariables environment).mapM (readVariable levels) with e | values
  all_goals
    rw [hm] at h
    cases h
  refine ⟨values, rfl, ?_⟩
  have hall := mapM_eq_ok_iff.mp hm
  clear hm
  generalize settingVariables environment = holders at hall ⊢
  induction hall with
  | nil => simp
  | @cons v w _ _ hvw _ ih =>
    obtain ⟨hpaths, hvalues, hread⟩ := ih
    rcases hi : inferValue levels v.2 with e | d <;> rw [readVariable, hi] at hvw <;> cases hvw
    refine ⟨by simp [hpaths], List.forall_mem_cons.mpr ⟨⟨_, hi⟩, hvalues⟩,
      List.forall_mem_cons.mpr ⟨⟨d, hi, List.mem_cons_self⟩, fun v hv => ?_⟩⟩
    obtain ⟨d', hd', hm'⟩ := hread v hv
    exact ⟨d', hd', List.mem_cons_of_mem _ hm'⟩

theorem wellKeyed_environment
    (h : readEnvironment levels variablePrefix (Fields.ofList environment) = .ok override) :
    WellKeyed (.table override) := by
  obtain ⟨values, rfl, -, hvalues, -⟩ := exists_values h
  exact wellKeyed_setAll
    (fun w hw => (hvalues w hw).elim fun _ hi => not_isTable_of_inferValue hi) wellKeyed_nil

theorem lookup?_environment (hp : PathsApart environment)
    (h : readEnvironment levels variablePrefix (Fields.ofList environment) = .ok override) :
    ∀ q, q ≠ [] →
      match assigned? levels environment q with
      | some d => lookup? q (.table override) = some d ∧ ¬ d.IsTable
      | none => ∀ d, lookup? q (.table override) = some d → d.IsTable := by
  obtain ⟨values, rfl, hpaths, hvalues, hread⟩ := exists_values h
  have hplain : ∀ w ∈ values, ¬ w.2.IsTable := fun w hw =>
    (hvalues w hw).elim fun _ hi => not_isTable_of_inferValue hi
  intro q hq
  rw [assigned?]
  cases hf : (settingVariables environment).find? fun v => v.1 = q with
  | none =>
    have hnew : ∀ w ∈ values, w.1 ≠ q := by
      intro w hw hwq
      have hmem : w.1 ∈ (settingVariables environment).map Prod.fst :=
        hpaths ▸ List.mem_map_of_mem hw
      obtain ⟨v, hv, hvw⟩ := List.mem_map.mp hmem
      exact absurd (hvw.trans hwq) (by simpa using List.find?_eq_none.mp hf v hv)
    obtain ⟨key, path, rfl⟩ := List.exists_cons_of_ne_nil hq
    exact fun d => isTable_of_lookup?_setAll (fun w hw => ⟨hnew w hw, hplain w hw⟩)
      (by simp [lookup?_cons])
  | some v =>
    obtain ⟨d, hd, hm⟩ := hread v (List.mem_of_find?_eq_some hf)
    obtain rfl : v.1 = q := by simpa using List.find?_some hf
    have hapart : values.Pairwise fun v w => Apart v.1 w.1 := by
      rw [← List.pairwise_map (f := Prod.fst) (R := Apart), hpaths, List.pairwise_map]
      exact hp
    simp only [Option.bind_some, hd, Except.toOption]
    exact ⟨lookup?_setAll_of_mem hapart hm hq [], not_isTable_of_inferValue hd⟩

/-- What is found where the settings of an environment are merged into a table: the value of
a variable; what the table holds; or what a variable sets above or below the path. -/
theorem lookup?_merge_environment (hp : PathsApart environment)
    (h : readEnvironment levels variablePrefix (Fields.ofList environment) = .ok override)
    (hq : q ≠ []) (base : Table) :
    (∃ d, assigned? levels environment q = some d ∧
      lookup? q (.table (merge base override)) = some d) ∨
    (assigned? levels environment q = none ∧
      lookup? q (.table (merge base override)) = lookup? q (.table base)) ∨
    (∃ entries, lookup? q (.table (merge base override)) = some (.table entries)) ∨
    ∃ front d, front ≠ [] ∧ front <+: q ∧ front ≠ q ∧
      lookup? front (.table (merge base override)) = some d ∧ ¬ d.IsTable := by
  have hw := wellKeyed_environment h
  have hplain {p : List String} {d : Document} (hpne : p ≠ []) (hd : ¬ d.IsTable)
      (hl : lookup? p (.table override) = some d) :
      lookup? p (.table (merge base override)) = some d := by
    rw [lookup?_merge_of_some hw hl hpne, mergeValue_of_not_isTable hd]
  have hqfound := lookup?_environment hp h q hq
  rcases ha : assigned? levels environment q with _ | d <;> rw [ha] at hqfound
  · rcases hl : lookup? q (.table override) with _ | d
    · by_cases htables : ∀ front d, front ≠ [] → front <+: q →
          lookup? front (.table override) = some d → d.IsTable
      · exact .inr (.inl ⟨rfl, lookup?_merge_of_none hw hl htables base⟩)
      · simp only [not_forall] at htables
        obtain ⟨front, d, hf, hfq, hld, hd⟩ := htables
        have hne : front ≠ q := by
          rintro rfl
          cases hl.symm.trans hld
        exact .inr (.inr (.inr ⟨front, d, hf, hfq, hne, hplain hf hd hld, hd⟩))
    · obtain ⟨entries, rfl⟩ := hqfound d hl
      rw [lookup?_merge_of_some hw hl hq]
      exact .inr (.inr (.inl ((isTable_mergeValue _ entries).imp fun _ => congrArg some)))
  · obtain ⟨hl, hd⟩ := hqfound
    exact .inl ⟨d, rfl, hplain hq hd hl⟩

end Mustache.Config
