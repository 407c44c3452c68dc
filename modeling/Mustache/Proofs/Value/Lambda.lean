import Mustache.Proofs.Render.Walk
import Mustache.Value.Bind

/-! Lambdas and scalars inside values. Main results: the text of a value and the bodies that
its lambdas receive do not depend on earlier calls, and what ends the showing of a value was
raised by a lambda or a scalar in it. Both carry over to what fields show in their contexts,
and to the contexts that sections enter; so does it that there is no lambda. -/

namespace Mustache

/-- Induction over a value, with its fields or items at once. -/
@[elab_as_elim]
theorem Value.induction {P : Value → Prop}
    (record : ∀ fields : List (String × Value), (∀ field ∈ fields, P field.2) → P (.record fields))
    (bool : ∀ b, P (.bool b)) (seq : ∀ items, (∀ v ∈ items, P v) → P (.seq items))
    (text : ∀ s, P (.text s)) (scalar : ∀ s, P (.scalar s)) (lambda : ∀ f, P (.lambda f))
    (absent : P .absent) (v : Value) : P v := by
  refine Value.rec (motive_1 := P) (motive_2 := fun fields => ∀ field ∈ fields, P field.2)
    (motive_3 := fun items => ∀ v ∈ items, P v) (motive_4 := fun field => P field.2)
    record bool seq text scalar lambda absent ?_ ?_ ?_ ?_ ?_ v
  · simp
  · exact fun field rest hfield hrest => List.forall_mem_cons.2 ⟨hfield, hrest⟩
  · simp
  · exact fun v rest hv hrest => List.forall_mem_cons.2 ⟨hv, hrest⟩
  · exact fun _ _ h => h

theorem Value.exists_eq_record {v : Value} (h : v.isRecord) : ∃ fields, v = .record fields := by
  cases v with
  | record fields => exact ⟨fields, rfl⟩
  | _ => cases h

/-! ### Calls are only added -/

namespace Calling

variable {α β : Type}

theorem bind_apply (c : Calling α) (f : α → Calling β) (calls : Array String) : (c >>= f) calls =
    match c calls with
    | (.ok a, calls) => f a calls
    | (.error failure, calls) => (.error failure, calls) := by
  have hbind : (c >>= f) calls = ExceptT.bindCont f (c calls).1 (c calls).2 := rfl
  rw [hbind]
  rcases c calls with ⟨_ | a, calls'⟩ <;> rfl

/-- Earlier calls have no influence on what a computation yields and on the calls that it
adds. -/
def Appends (c : Calling α) : Prop :=
  ∃ result added, ∀ calls, c calls = (result, calls ++ added)

theorem appends_pure (a : α) : Appends (pure a : Calling α) :=
  ⟨.ok a, #[], fun calls => by rw [Array.append_empty]; rfl⟩

theorem Appends.bind {c : Calling α} {f : α → Calling β} (hc : Appends c)
    (hf : ∀ a, Appends (f a)) : Appends (c >>= f) := by
  obtain ⟨result | a, added, hc⟩ := hc
  · exact ⟨.error result, added, fun calls => by rw [bind_apply, hc]⟩
  · obtain ⟨result, added', hf⟩ := hf a
    refine ⟨result, added ++ added', fun calls => ?_⟩
    rw [bind_apply, hc, ← Array.append_assoc]
    exact hf _

end Calling

theorem Lambda.appends_apply (f : Lambda) (body : String) : Calling.Appends (f.apply body) :=
  ⟨f.call body, #[body], fun _ => rfl⟩

theorem Scalar.appends_ask (s : Scalar) : Calling.Appends s.ask :=
  ⟨s.text, #[], fun calls => by rw [Array.append_empty]; rfl⟩

theorem Value.appends_renderFields {fields : List (String × Value)}
    (h : ∀ field ∈ fields, Calling.Appends field.2.render) :
    Calling.Appends (renderFields fields) := by
  induction fields with
  | nil => exact Calling.appends_pure _
  | cons field rest ih =>
    rw [List.forall_mem_cons] at h
    exact h.1.bind fun head => (ih h.2).bind fun tail => Calling.appends_pure _

theorem Value.appends_renderItems {items : List Value}
    (h : ∀ v ∈ items, Calling.Appends v.render) : Calling.Appends (renderItems items) := by
  induction items with
  | nil => exact Calling.appends_pure _
  | cons v rest ih =>
    rw [List.forall_mem_cons] at h
    exact h.1.bind fun head => (ih h.2).bind fun tail => Calling.appends_pure _

theorem Value.appends_render (v : Value) : Calling.Appends v.render := by
  induction v using Value.induction with
  | record fields ih => exact (appends_renderFields ih).bind fun inner => Calling.appends_pure _
  | seq items ih => exact (appends_renderItems ih).bind fun inner => Calling.appends_pure _
  | lambda f => exact f.appends_apply ""
  | scalar s => exact s.appends_ask
  | bool | text | absent => exact Calling.appends_pure _

theorem Contexts.appends_text (c : Contexts) (name : String) :
    Calling.Appends (c.text name) := by
  unfold text
  split
  · split
    · exact Value.appends_render _
    · split
      · exact Value.appends_render _
      · exact Calling.appends_pure _
  · exact Value.appends_render _

/-! ### What is raised -/

/-- A scalar of a value has no text, or a lambda of it none to return, but raises this
failure. -/
inductive Value.Raises (failure : Failure) : Value → Prop
  | scalar {s : Scalar} : s.text = .error failure → Raises failure (.scalar s)
  | lambda {f : Lambda} {body : String} :
      f.call body = .error failure → Raises failure (.lambda f)
  | field {fields : List (String × Value)} {field : String × Value} :
      field ∈ fields → Raises failure field.2 → Raises failure (.record fields)
  | item {items : List Value} {v : Value} :
      v ∈ items → Raises failure v → Raises failure (.seq items)

/-- A computation fails only as `F` allows. -/
def Calling.FailsAs (F : Failure → Prop) {α : Type} (c : Calling α) : Prop :=
  ∀ calls failure, (c calls).1 = .error failure → F failure

namespace Calling.FailsAs

variable {F G : Failure → Prop} {α β : Type}

theorem pure (a : α) : FailsAs F (Pure.pure a : Calling α) := fun _ _ h => nomatch h

theorem bind {c : Calling α} {f : α → Calling β} (hc : FailsAs F c) (hf : ∀ a, FailsAs F (f a)) :
    FailsAs F (c >>= f) := by
  intro calls failure h
  rw [bind_apply] at h
  split at h
  · rename_i a calls' _
    exact hf a calls' failure h
  · rename_i failure' calls' hfailed
    cases h
    exact hc calls failure (congrArg Prod.fst hfailed)

theorem mono {c : Calling α} (hc : FailsAs F c) (h : ∀ failure, F failure → G failure) :
    FailsAs G c :=
  fun calls failure hfailed => h failure (hc calls failure hfailed)

end Calling.FailsAs

namespace Value

theorem failsAs_renderFields {F : Failure → Prop} {fields : List (String × Value)}
    (h : ∀ field ∈ fields, field.2.render.FailsAs F) : (renderFields fields).FailsAs F := by
  induction fields with
  | nil => exact .pure _
  | cons field rest ih =>
    rw [List.forall_mem_cons] at h
    exact h.1.bind fun head => (ih h.2).bind fun tail => .pure _

theorem failsAs_renderItems {F : Failure → Prop} {items : List Value}
    (h : ∀ v ∈ items, v.render.FailsAs F) : (renderItems items).FailsAs F := by
  induction items with
  | nil => exact .pure _
  | cons v rest ih =>
    rw [List.forall_mem_cons] at h
    exact h.1.bind fun head => (ih h.2).bind fun tail => .pure _

theorem failsAs_render (v : Value) : v.render.FailsAs (Raises · v) := by
  induction v using Value.induction with
  | record fields ih =>
    have hfields := failsAs_renderFields (F := (Raises · (.record fields))) fun field hmem =>
      (ih field hmem).mono fun _ => .field hmem
    exact hfields.bind fun inner => .pure _
  | seq items ih =>
    have hitems := failsAs_renderItems (F := (Raises · (.seq items))) fun v hmem =>
      (ih v hmem).mono fun _ => .item hmem
    exact hitems.bind fun inner => .pure _
  | lambda f => exact fun _ _ h => .lambda h
  | scalar s => exact fun _ _ h => .scalar h
  | bool | text | absent => exact .pure _

theorem Raises.of_field {failure : Failure} {v w : Value} {name : String}
    (hfield : v.field? name = some w) (h : w.Raises failure) : v.Raises failure := by
  cases v with
  | record fields =>
    obtain ⟨field, hfind, rfl⟩ := Option.map_eq_some_iff.1 hfield
    exact .field (List.mem_of_find?_eq_some hfind) h
  | seq | bool | text | scalar | lambda | absent => simp [field?] at hfield

end Value

/-- A scalar or a lambda of the current context or of the outer one raises this failure. -/
def Contexts.Raises (c : Contexts) (failure : Failure) : Prop :=
  c.current.Raises failure ∨ ∃ v ∈ c.outer, v.Raises failure

namespace Contexts

variable {c : Contexts} {failure : Failure}

theorem failsAs_text (c : Contexts) (name : String) : (c.text name).FailsAs c.Raises := by
  unfold text
  split
  · rename_i fields hcurrent
    split
    · rename_i v hfind
      refine v.failsAs_render.mono fun _ h => .inl ?_
      exact h.of_field (by rw [hcurrent]; exact hfind)
    · split
      · rename_i v hfind
        obtain ⟨outer, houter, hfield⟩ := Option.bind_eq_some_iff.1 hfind
        exact v.failsAs_render.mono fun _ h => .inr ⟨outer, houter, h.of_field hfield⟩
      · exact .pure _
  · exact c.current.failsAs_render.mono fun _ => .inl

theorem raises_of_enter {v : Value} (h : (c.enter v).Raises failure)
    (hv : v.Raises failure → c.current.Raises failure) : c.Raises failure := by
  obtain h | ⟨_, ⟨⟩, h⟩ := h
  · exact .inl (hv h)
  · exact .inl h

/-- What a section enters raises nothing that its contexts do not. -/
theorem raises_of_within {name : String} {entered : Option Value}
    (henters : Showing.Enters (c.current.field? name) entered)
    (h : (c.within entered).Raises failure) : c.Raises failure := by
  cases henters with
  | nothing => exact h
  | record hfield | scalar hfield => exact raises_of_enter h (.of_field hfield)
  | item hfield hmem _ => exact raises_of_enter h fun hv => .of_field hfield (.item hmem hv)

end Contexts

/-- A body is shown in contexts that raise this failure, or the lambda of a section does. -/
def Showing.Raises (failure : Failure) : Showing → Prop
  | .bodies contexts => ∃ c ∈ contexts, c.Raises failure
  | .expansion f => ∃ body, f.call body = .error failure

namespace Contexts

variable {c c' : Contexts} {sense : Template.Sense} {name body : String} {failure : Failure}

/-- What a section shows raises nothing that its contexts do not. -/
theorem raises_of_ofSection (h : (Showing.ofSection sense c name).Raises failure) :
    c.Raises failure := by
  rw [Showing.ofSection_eq_ofFound] at h
  obtain ⟨f, hfound, heq⟩ | ⟨entered, henters, heq⟩ :=
    Showing.ofFound_cases sense (c.current.field? name)
  · rw [heq] at h
    obtain ⟨body, hbody⟩ := h
    exact .inl (.of_field hfound (.lambda hbody))
  · rw [heq] at h
    obtain ⟨_, hmem, hraises⟩ := h
    obtain ⟨e, he, rfl⟩ := List.mem_map.1 hmem
    exact raises_of_within (henters e he) hraises

theorem raises_of_mem_bodies {contexts : List Contexts}
    (hshowing : Showing.ofSection sense c name = .bodies contexts) (hmem : c' ∈ contexts)
    (h : c'.Raises failure) : c.Raises failure := by
  have hshown : (Showing.ofSection sense c name).Raises failure := hshowing ▸ ⟨c', hmem, h⟩
  exact raises_of_ofSection hshown

theorem raises_of_expansion {f : Lambda}
    (hshowing : Showing.ofSection sense c name = .expansion f)
    (h : f.call body = .error failure) : c.Raises failure := by
  have hshown : (Showing.ofSection sense c name).Raises failure := hshowing ▸ ⟨body, h⟩
  exact raises_of_ofSection hshown

end Contexts

/-- What binding a context or showing a part of it raises. -/
def Datum.Raises (d : Datum) (failure : Failure) : Prop :=
  match d.bind with
  | .error unbound => failure = unbound
  | .ok v => v.Raises failure

theorem Datum.raises_iff {d : Datum} {v : Value} {failure : Failure} (hbind : d.bind = .ok v) :
    d.Raises failure ↔ v.Raises failure := by
  rw [Datum.Raises, hbind]

theorem Contexts.raises_of_bind {d : Datum} {v : Value} {failure : Failure}
    (hbind : d.bind = .ok v) (h : Contexts.Raises ⟨v, none⟩ failure) : d.Raises failure := by
  obtain h | ⟨_, ⟨⟩, _⟩ := h
  exact (Datum.raises_iff hbind).2 h

/-! ### Without lambdas -/

/-- No lambda occurs in a value, however deep. -/
inductive Value.LambdaFree : Value → Prop
  | record {fields : List (String × Value)} :
      (∀ field ∈ fields, LambdaFree field.2) → LambdaFree (.record fields)
  | seq {items : List Value} : (∀ v ∈ items, LambdaFree v) → LambdaFree (.seq items)
  | bool {b : Bool} : LambdaFree (.bool b)
  | text {s : String} : LambdaFree (.text s)
  | scalar {s : Scalar} : LambdaFree (.scalar s)
  | absent : LambdaFree .absent

theorem Value.LambdaFree.field {v w : Value} {name : String} (h : v.LambdaFree)
    (hfield : v.field? name = some w) : w.LambdaFree := by
  cases h with
  | record h =>
    obtain ⟨field, hfind, rfl⟩ := Option.map_eq_some_iff.1 hfield
    exact h field (List.mem_of_find?_eq_some hfind)
  | seq | bool | text | scalar | absent => simp [field?] at hfield

structure Contexts.LambdaFree (c : Contexts) : Prop where
  current : c.current.LambdaFree
  outer : ∀ v ∈ c.outer, v.LambdaFree

namespace Contexts.LambdaFree

variable {c : Contexts}

theorem enter (h : c.LambdaFree) {v : Value} (hv : v.LambdaFree) : (c.enter v).LambdaFree where
  current := hv
  outer := by
    rintro _ ⟨⟩
    exact h.current

/-- What a section enters holds no lambda if what was found under its name holds none. -/
theorem within (h : c.LambdaFree) {found entered : Option Value}
    (hfound : ∀ v ∈ found, v.LambdaFree) (henters : Showing.Enters found entered) :
    (c.within entered).LambdaFree := by
  cases henters with
  | nothing => exact h
  | record hrecord => exact h.enter (hfound _ hrecord)
  | scalar hscalar => exact h.enter .scalar
  | item hitems hmem _ =>
    cases hfound _ hitems with
    | seq hfree => exact h.enter (hfree _ hmem)

/-- Where no lambda occurs a section shows its body, in contexts without lambdas. -/
theorem exists_ofSection_eq (h : c.LambdaFree) (sense : Template.Sense) (name : String) :
    ∃ contexts, Showing.ofSection sense c name = .bodies contexts ∧
      ∀ c' ∈ contexts, c'.LambdaFree := by
  have hfound : ∀ v ∈ c.current.field? name, v.LambdaFree := fun v hv => h.current.field hv
  rw [Showing.ofSection_eq_ofFound]
  obtain ⟨f, hf, -⟩ | ⟨entered, henters, heq⟩ :=
    Showing.ofFound_cases sense (c.current.field? name)
  · cases hfound _ hf
  · rw [heq]
    exact ⟨_, rfl, List.forall_mem_map.2 fun e he => h.within hfound (henters e he)⟩

end Contexts.LambdaFree

end Mustache
