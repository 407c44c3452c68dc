import Mustache.Proofs.Run

/-! Fields that no template names. A name is looked up where it stands in a template, in the
current record and then in the outer one, and a whole record is shown only as the value of
a field that is named. Main result: records without lambdas that agree on all names in the
templates which an engine can come by are rendered alike, whatever else they hold. -/

namespace Mustache

open Template

/-! ### Names in templates -/

namespace Template

mutual

def Node.fieldNames : Node → List String
  | .text _ | .inclusion _ => []
  | .field name => [name]
  | .block _ name _ children => name :: Template.fieldNames children

/-- The names of fields and sections that stand in nodes, at any depth. -/
def fieldNames : List Node → List String
  | [] => []
  | node :: rest => node.fieldNames ++ fieldNames rest

end

theorem Node.fieldNames_subset {node : Node} {nodes : List Node} (h : node ∈ nodes) :
    node.fieldNames ⊆ Template.fieldNames nodes := by
  induction nodes with
  | nil => cases h
  | cons head nodes ih =>
    rw [Template.fieldNames]
    obtain rfl | h := List.mem_cons.1 h
    · exact List.subset_append_left ..
    · exact List.subset_append_of_subset_right _ (ih h)

/-- All field names in nodes are among these names. -/
def NamesIn (names : Set String) (nodes : List Node) : Prop :=
  ∀ name ∈ fieldNames nodes, name ∈ names

end Template

/-- The field names in the templates that an engine has cached and in those that its loader
can supply. -/
def Engine.fieldNames (engine : Engine) : Set String :=
  {name | ∃ identifier t, (engine.cache.find? identifier = some t ∨
    engine.setup.compiled identifier = .ok t) ∧ name ∈ Template.fieldNames t.nodes}

/-! ### Contexts that agree on names -/

/-- Contexts in which the same is found under each of the names. The current values are the
same or they are records, which may differ in their other fields. -/
structure Contexts.AgreeOn (names : Set String) (c c' : Contexts) : Prop where
  current : c.current = c'.current ∨ c.current.isRecord ∧ c'.current.isRecord
  field : ∀ name ∈ names, c.current.field? name = c'.current.field? name
  outerField : ∀ name ∈ names,
    c.outer.bind (·.field? name) = c'.outer.bind (·.field? name)

/-- Sections that are shown in contexts which agree, or by the same lambda. -/
inductive Showing.AgreeOn (names : Set String) : Showing → Showing → Prop
  | bodies {contexts contexts' : List Contexts} :
      List.Forall₂ (Contexts.AgreeOn names) contexts contexts' →
      AgreeOn names (.bodies contexts) (.bodies contexts')
  | expansion (f : Lambda) : AgreeOn names (.expansion f) (.expansion f)

namespace Contexts.AgreeOn

variable {names : Set String} {name : String} {c c' : Contexts}

theorem text_eq (h : c.AgreeOn names c') (hname : name ∈ names) :
    c.text name = c'.text name := by
  have hfield := h.field name hname
  have houter := h.outerField name hname
  unfold text
  obtain hcurrent | ⟨hrecord, hrecord'⟩ := h.current
  · rw [hcurrent, houter]
  · obtain ⟨fields, hfields⟩ := Value.exists_eq_record hrecord
    obtain ⟨fields', hfields'⟩ := Value.exists_eq_record hrecord'
    rw [hfields, hfields'] at hfield ⊢
    simp only [Value.field?] at hfield
    simp only [hfield, houter]

/-- The records in which a value was found become the outer ones around it. -/
theorem enter (h : c.AgreeOn names c') (v : Value) : (c.enter v).AgreeOn names (c'.enter v) where
  current := .inl rfl
  field _ _ := rfl
  outerField := h.field

theorem within (h : c.AgreeOn names c') (entered : Option Value) :
    (c.within entered).AgreeOn names (c'.within entered) := by
  cases entered with
  | none => exact h
  | some v => exact h.enter v

theorem ofSection (h : c.AgreeOn names c') (hname : name ∈ names) (sense : Sense) :
    Showing.AgreeOn names (.ofSection sense c name) (.ofSection sense c' name) := by
  rw [Showing.ofSection_eq_ofFound, Showing.ofSection_eq_ofFound, h.field name hname]
  obtain ⟨f, -, heq⟩ | ⟨entered, -, heq⟩ :=
    Showing.ofFound_cases sense (c'.current.field? name)
  · rw [heq]
    exact .expansion f
  · rw [heq]
    refine .bodies ?_
    rw [List.forall₂_map_left_iff, List.forall₂_map_right_iff, List.forall₂_same]
    exact fun e _ => h.within e

end Contexts.AgreeOn

/-! ### Renders that agree -/

/-- All field names in cached templates are among these names. -/
def Cache.NamesIn (names : Set String) (cache : Cache) : Prop :=
  ∀ identifier t, cache.find? identifier = some t → Template.NamesIn names t.nodes

/-- Two computations do the same and cache no other names, as long as none are cached. -/
def Run.AgreeWithin (names : Set String) {α : Type} (r r' : Run α) : Prop :=
  ∀ s : Session, s.cache.NamesIn names → r s = r' s ∧ (r s).2.cache.NamesIn names

namespace Run.AgreeWithin

variable {names : Set String} {α : Type}

/-- What leaves the cache alone agrees with itself. -/
theorem of_cache_eq {r : Run α} (h : ∀ s, (r s).2.cache = s.cache) : AgreeWithin names r r :=
  fun s hs => ⟨rfl, (h s).symm ▸ hs⟩

theorem reject (e : TemplateError) : AgreeWithin names (Run.reject e : Run α) (Run.reject e) :=
  of_cache_eq fun _ => rfl

theorem log (event : Event) : AgreeWithin names (Run.log event) (Run.log event) :=
  of_cache_eq fun _ => rfl

theorem write (text : String) : AgreeWithin names (Run.write text) (Run.write text) := by
  refine of_cache_eq fun s => ?_
  rw [Run.write_apply]
  split
  · rfl
  · split <;> rfl

theorem composes : Run.Composes fun _ r r' => AgreeWithin names r r' where
  pure _ := of_cache_eq fun _ => rfl
  bind {α β r r' f f'} hr hf s hs := by
    obtain ⟨hsame, hs'⟩ := hr s hs
    rw [Run.bind_apply, Run.bind_apply, ← hsame]
    generalize r s = out at hs' ⊢
    obtain ⟨failure | a, s'⟩ := out
    · exact ⟨rfl, hs'⟩
    · exact hf a s' hs'

theorem reporting {r r' : Run α} (identifier : String) (h : AgreeWithin names r r') :
    AgreeWithin names (Setup.reporting identifier r) (Setup.reporting identifier r') := by
  intro s hs
  obtain ⟨hsame, hs'⟩ := h s hs
  refine ⟨Run.reporting_congr hsame, ?_⟩
  obtain ⟨events, hreporting⟩ := Run.exists_reporting_apply s identifier r
  rw [hreporting]
  exact hs'

section Supplied

variable {setup : Setup} (hsupplied : ∀ identifier t, setup.compiled identifier = .ok t →
  Template.NamesIn names t.nodes)
include hsupplied

/-- What a fetch yields was cached or could be supplied, so its names are known. -/
theorem fetch_bind {identifier : String} {f f' : Template → Run α}
    (hf : ∀ t, Template.NamesIn names t.nodes → AgreeWithin names (f t) (f' t)) :
    AgreeWithin names (setup.fetch identifier >>= f) (setup.fetch identifier >>= f') := by
  intro s hs
  rw [Run.bind_apply, Run.bind_apply]
  cases hfind : s.cache.find? identifier with
  | some t =>
    rw [Setup.fetch_of_find?_eq_some hfind]
    exact hf t (hs identifier t hfind) _ hs
  | none =>
    cases hcompiled : setup.compiled identifier with
    | error failure =>
      rw [Setup.fetch_of_compiled_eq_error hfind hcompiled]
      exact ⟨rfl, hs⟩
    | ok t =>
      have ht := hsupplied identifier t hcompiled
      rw [Setup.fetch_of_compiled_eq_ok hfind hcompiled]
      refine hf t ht _ fun other t' hfind' => ?_
      rw [Cache.find?_add, Option.or_eq_some_iff] at hfind'
      obtain hcached | ⟨-, hadded⟩ := hfind'
      · exact hs other t' hcached
      · split at hadded
        · cases hadded
          exact ht
        · cases hadded

theorem renderNodes (limit remaining : Nat) {c c' : Contexts} (hc : c.AgreeOn names c')
    (hfree : c.LambdaFree) {nodes : List Node} (hnodes : Template.NamesIn names nodes) :
    AgreeWithin names (setup.renderNodes limit remaining c nodes)
      (setup.renderNodes limit remaining c' nodes) := by
  induction remaining using Nat.strong_induction_on generalizing c c' nodes with
  | h remaining ih =>
    rw [Setup.renderNodes_eq_forM, Setup.renderNodes_eq_forM]
    refine composes.forM fun node hnode => ?_
    cases node with
    | text content => exact write content
    | field name =>
      have hname := hnodes name (Node.fieldNames_subset hnode (List.mem_singleton_self name))
      rw [Setup.renderNode, Setup.renderNode, ← hc.text_eq hname]
      exact composes.bind (of_cache_eq fun _ => rfl) write
    | inclusion name =>
      cases remaining with
      | zero => exact reject _
      | succ below => exact fetch_bind hsupplied fun t ht => ih below below.lt_succ_self hc hfree ht
    | block sense name body children =>
      cases remaining with
      | zero => exact reject _
      | succ below =>
        have hnames := fun inner hinner => hnodes inner (Node.fieldNames_subset hnode hinner)
        rw [Node.fieldNames, List.forall_mem_cons] at hnames
        obtain ⟨hname, hchildren⟩ := hnames
        have hagree := hc.ofSection hname sense
        obtain ⟨contexts, hshowing, hcontexts⟩ := hfree.exists_ofSection_eq sense name
        rw [Setup.renderNode, Setup.renderNode, Setup.descend, Setup.descend]
        rw [hshowing] at hagree ⊢
        generalize Showing.ofSection sense c' name = showing at hagree ⊢
        -- What no lambda expands is shown as bodies on either side.
        cases hagree with
        | bodies hbodies =>
          refine composes.forM_forall₂ ?_
          refine ((List.forall₂_and_left ..).2 ⟨hcontexts, hbodies⟩).imp fun c₁ c₁' h => ?_
          exact ih below below.lt_succ_self h.2 h.1 hchildren

theorem render (identifier : String) {context context' : Datum}
    {fields fields' : List (String × Value)} (hbind : context.bind = .ok (.record fields))
    (hbind' : context'.bind = .ok (.record fields')) (hfree : (Value.record fields).LambdaFree)
    (hagree : ∀ name ∈ names, Fields.find? name fields = Fields.find? name fields') :
    AgreeWithin names (setup.render identifier context) (setup.render identifier context') := by
  have hc : Contexts.AgreeOn names ⟨.record fields, none⟩ ⟨.record fields', none⟩ :=
    ⟨.inr ⟨rfl, rfl⟩, hagree, fun _ _ => rfl⟩
  simp only [Setup.render, hbind, hbind']
  exact composes.bind (log _) fun _ => reporting identifier
    (fetch_bind hsupplied fun t ht => renderNodes hsupplied _ _ hc ⟨hfree, nofun⟩ ht)

end Supplied

end Run.AgreeWithin

namespace Engine

/-- Fields whose names stand in no template have no influence. Two records that agree on
the field names in all templates that an engine can come by are rendered alike, if one of
them holds no lambda: the outcomes are the same. -/
theorem render_of_agree_on_fieldNames (engine : Engine) (identifier : String)
    {context context' : Datum} (sink : Sink) {fields fields' : List (String × Value)}
    (hbind : context.bind = .ok (.record fields)) (hbind' : context'.bind = .ok (.record fields'))
    (hfree : (Value.record fields).LambdaFree)
    (hagree : ∀ name ∈ engine.fieldNames, Fields.find? name fields = Fields.find? name fields') :
    engine.outcome (.render identifier context sink) =
      engine.outcome (.render identifier context' sink) := by
  have hsupplied (identifier : String) (t : Template)
      (h : engine.setup.compiled identifier = .ok t) :
      Template.NamesIn engine.fieldNames t.nodes :=
    fun name hname => ⟨identifier, t, .inr h, hname⟩
  have hcached : (Session.start engine.cache sink).cache.NamesIn engine.fieldNames :=
    fun identifier t h name hname => ⟨identifier, t, .inl h, hname⟩
  obtain ⟨hsame, -⟩ := Run.AgreeWithin.render hsupplied identifier hbind hbind' hfree hagree
    _ hcached
  simp only [outcome, run, hsame]

/-- An engine over the single source `{{#s}}{{y}}{{/s}}{{x}}`. -/
def sectionAndField : Engine :=
  fresh ⟨.memory [("a", .bytes [123, 123, 35, 115, 125, 125, 123, 123, 121, 125, 125, 123, 123, 47,
    115, 125, 125, 123, 123, 120, 125, 125])] 99, "u8", 3⟩

theorem compiled_sectionAndField : sectionAndField.setup.compiled "a" = .ok
    ⟨"a", "\x7b\x7b#s\x7d\x7d\x7b\x7by\x7d\x7d\x7b\x7b/s\x7d\x7d\x7b\x7bx\x7d\x7d",
      [.block .normal "s" "\x7b\x7by\x7d\x7d" [.field "y"], .field "x"]⟩ :=
  Setup.compiled_eq_ok_iff.2 ⟨rfl, _, rfl, by cbv, by with_unfolding_all rfl⟩

theorem fieldNames_sectionAndField : sectionAndField.fieldNames ⊆ {"s", "y", "x"} := by
  rintro name ⟨identifier, t, hcached | hcompiled, hname⟩
  · cases hcached
  · by_cases hidentifier : "a" = identifier
    · subst hidentifier
      rw [compiled_sectionAndField] at hcompiled
      cases hcompiled
      simpa [Template.fieldNames, Node.fieldNames] using hname
    · simp [sectionAndField, fresh, Setup.compiled, Loader.load, Fields.find?_cons, hidentifier,
        Except.bind] at hcompiled

theorem render_of_agree_on_fieldNames_sectionAndField :
    let inner : Datum := .ofFields [("y", .ofText "1")]
    let yes : Datum := .ofNature "bool" (.bool true)
    let context : Datum := .ofFields [("s", inner), ("x", yes), ("z", .ofText "2")]
    let context' : Datum := .ofFields [("z", yes), ("x", yes), ("w", inner), ("s", inner)]
    let shown : Value := .record [("y", .text "1")]
    let fields := [("s", shown), ("x", .bool true), ("z", .text "2")]
    let fields' := [("z", .bool true), ("x", .bool true), ("w", shown), ("s", shown)]
    context.bind = .ok (.record fields) ∧ context'.bind = .ok (.record fields') ∧
    (Value.record fields).LambdaFree ∧
    (∀ name ∈ sectionAndField.fieldNames, Fields.find? name fields = Fields.find? name fields') ∧
    sectionAndField.outcome (.render "a" context .unlimited) =
      sectionAndField.outcome (.render "a" context' .unlimited) := by
  intro inner yes context context' shown fields fields'
  have hbind : context.bind = .ok (.record fields) := by cbv
  have hbind' : context'.bind = .ok (.record fields') := by cbv
  have hshown : shown.LambdaFree := .record (List.forall_mem_singleton.2 .text)
  have hfree : (Value.record fields).LambdaFree := .record (List.forall_mem_cons.2
    ⟨hshown, List.forall_mem_cons.2 ⟨.bool, List.forall_mem_singleton.2 .text⟩⟩)
  have hagree : ∀ name ∈ sectionAndField.fieldNames,
      Fields.find? name fields = Fields.find? name fields' := by
    intro name hname
    obtain rfl | rfl | rfl := fieldNames_sectionAndField hname <;> rfl
  exact ⟨hbind, hbind', hfree, hagree,
    render_of_agree_on_fieldNames sectionAndField "a" .unlimited hbind hbind' hfree hagree⟩

end Engine

end Mustache
