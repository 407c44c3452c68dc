import Mustache.Proofs.Engine.History
import Mustache.Proofs.Engine.Refusal
import Mustache.Value.Object

/-! What the events of a run tell. Over sources in memory each request to the loader ends in
one event, which says whether the template was compiled or not, and each compiled template is
cached; a text that has no encoding is the exception, and the last request of its step. Main
result: the events of any steps are an account of the cache and of the requests, and a render is
framed by its own events or leaves no trace. -/

namespace Mustache

open Template

namespace Event

def compiled? : Event → Option String
  | .compiled identifier _ => some identifier
  | _ => none

def asked? : Event → Option String
  | .compiled identifier _ => some identifier
  | .compileFailed identifier _ _ => some identifier
  | _ => none

/-- The beginning or the failure of a render. -/
def MarksRender : Event → Prop
  | .renderStarted _ | .renderFailed .. => True
  | .cacheHit _ | .compiled .. | .compileFailed .. => False

/-- The identifiers of which events say that they were compiled or failed to. -/
def askedIn (events : List Event) : List String := events.filterMap asked?

/-- The identifiers `cached` are those that were known before the events, and behind them
those of which the events say that they were compiled. A cache hit is for what was known before
or was compiled in front of it. -/
structure Accounts (events : List Event) (known cached : List String) : Prop where
  cached : cached = known ++ events.filterMap compiled?
  hits : ∀ front identifier back, events = front ++ .cacheHit identifier :: back →
    identifier ∈ known ++ front.filterMap compiled?

namespace Accounts

variable {events events' : List Event} {known between cached : List String}

theorem nil (known : List String) : Accounts [] known known where
  cached := by simp
  hits := by simp

theorem singleton {event : Event} (known : List String)
    (h : ∀ identifier, event ≠ .cacheHit identifier) :
    Accounts [event] known (known ++ event.compiled?.toList) where
  cached := by cases hcompiled : event.compiled? <;> simp [hcompiled]
  hits front identifier back heq := by
    obtain ⟨-, rfl, -⟩ | ⟨_, _, hnil⟩ := List.singleton_eq_append_iff.1 heq
    all_goals simp_all

theorem mark {event : Event} (known : List String) (h : event.MarksRender) :
    Accounts [event] known known := by
  have hnoHit : ∀ identifier, event ≠ .cacheHit identifier := by
    rintro identifier rfl
    exact h
  have hsingle := singleton known hnoHit
  cases event with
  | renderStarted | renderFailed => simpa [compiled?] using hsingle
  | cacheHit | compiled | compileFailed => cases h

theorem hit {identifier : String} (h : identifier ∈ known) :
    Accounts [.cacheHit identifier] known known where
  cached := by simp [compiled?]
  hits front other back heq := by
    cases front with
    | nil =>
      obtain ⟨⟨⟩, -⟩ := List.cons.inj heq
      simpa using h
    | cons event front => simp at heq

theorem append (h : Accounts events known between) (h' : Accounts events' between cached) :
    Accounts (events ++ events') known cached where
  cached := by rw [h'.cached, h.cached, List.filterMap_append, List.append_assoc]
  hits front identifier back heq := by
    obtain ⟨front', rfl, hlater⟩ | ⟨rest, hevents, hrest⟩ := List.append_eq_append_iff.1 heq
    · have hmem := h'.hits front' identifier back hlater
      rwa [h.cached, List.append_assoc, ← List.filterMap_append] at hmem
    · cases rest with
      | nil =>
        have hmem := h'.hits [] identifier back hrest.symm
        rw [h.cached] at hmem
        simpa [hevents] using hmem
      | cons event rest =>
        obtain ⟨rfl, -⟩ := List.cons.inj hrest
        exact h.hits front identifier rest hevents

end Accounts

end Event

/-! ### Computations -/

/-- The source of the identifier is a text that has no encoding, and this was the result. -/
def Loader.Drops (loader : Loader) (identifier : String) {α : Type} (result : Except Failure α) :
    Prop :=
  loader.load identifier = .error (.bytes .unencodable) ∧ result = .error (.bytes .unencodable)

theorem Loader.Drops.map {loader : Loader} {identifier : String} {α β : Type}
    {result : Except Failure α} (h : loader.Drops identifier result) (f : α → β) :
    loader.Drops identifier (result.map f) :=
  ⟨h.1, by rw [h.2]; rfl⟩

/-- A computation that came from `s` to `s'` reported these events, which account for what it
cached and asked for. Behind that it may have asked for a source without an encoding, and this
was its end. -/
structure Loader.Reports (loader : Loader) {α : Type} (s : Session)
    (out : Except Failure α × Session) (reported : List Event) : Prop where
  events : out.2.events.toList = s.events.toList ++ reported
  accounts : Event.Accounts reported s.cache.identifiers out.2.cache.identifiers
  requests : ∃ dropped : Option String, out.2.requests.toList =
    s.requests.toList ++ Event.askedIn reported ++ dropped.toList ∧
    ∀ identifier ∈ dropped, loader.Drops identifier out.1

/-- A computation reports what it does, and marks no render. -/
def Run.Accounted (loader : Loader) {α : Type} (r : Run α) : Prop :=
  ∀ s, ∃ events, loader.Reports s (r s) events ∧ ∀ event ∈ events, ¬ event.MarksRender

namespace Run.Accounted

variable {loader : Loader}

/-- What leaves the cache, the requests and the events alone. -/
theorem of_eq {α : Type} {r : Run α} (hcache : ∀ s, (r s).2.cache = s.cache)
    (hrequests : ∀ s, (r s).2.requests = s.requests) (hevents : ∀ s, (r s).2.events = s.events) :
    Accounted loader r := by
  refine fun s => ⟨[], ⟨?_, ?_, none, ?_, nofun⟩, nofun⟩
  · rw [hevents, List.append_nil]
  · rw [hcache]
    exact .nil _
  · simp [hrequests, Event.askedIn]

theorem walking (loader : Loader) :
    Run.Walking (fun _ => True) fun _ r _ => Accounted loader r where
  pure _ := of_eq (fun _ => rfl) (fun _ => rfl) (fun _ => rfl)
  reject _ := of_eq (fun _ => rfl) (fun _ => rfl) (fun _ => rfl)
  write text := by
    refine of_eq (fun s => ?_) (fun s => ?_) (fun s => ?_) <;> rw [Run.write_apply] <;>
      cases s.sink.failure? <;> split <;> rfl
  calling _ _ := by
    refine of_eq (fun s => ?_) (fun s => ?_) (fun s => ?_) <;> rw [Run.calling_apply]
  bind {α β r r' f f'} hr hf s := by
    obtain ⟨events, ⟨hevents, haccounts, dropped, hrequests, hdropped⟩, hmarks⟩ := hr s
    rw [Run.bind_apply]
    generalize r s = out at hevents hrequests haccounts hdropped ⊢
    obtain ⟨failure | a, s'⟩ := out
    · refine ⟨events, ⟨hevents, haccounts, dropped, hrequests, fun name hname => ?_⟩, hmarks⟩
      obtain ⟨hload, hfailure⟩ := hdropped name hname
      cases hfailure
      exact ⟨hload, rfl⟩
    · -- What goes on has dropped nothing.
      obtain rfl : dropped = none := by
        cases dropped with
        | none => rfl
        | some name => cases (hdropped name rfl).2
      rw [Option.toList_none, List.append_nil] at hrequests
      obtain ⟨events', ⟨hevents', haccounts', dropped, hrequests', hdropped'⟩, hmarks'⟩ := hf a s'
      refine ⟨events ++ events', ⟨?_, haccounts.append haccounts', dropped, ?_, hdropped'⟩,
        fun event hmem => (List.mem_append.1 hmem).elim (hmarks event) (hmarks' event)⟩
      · rw [hevents', show s'.events.toList = _ from hevents, List.append_assoc]
      · rw [hrequests', show s'.requests.toList = _ from hrequests, Event.askedIn, Event.askedIn,
          Event.askedIn, List.filterMap_append, List.append_assoc s.requests.toList]

/-- A fetch tells of the one request that it makes, unless the source has no encoding. -/
theorem fetch {setup : Setup} {identifier : String}
    (hfailure : ∀ failure, setup.compiled identifier = .error failure →
      (∃ e, failure = .template e) ∨ setup.loader.load identifier = .error (.bytes .unencodable) ∧
        failure = .bytes .unencodable) : Accounted setup.loader (setup.fetch identifier) := by
  intro s
  cases hfind : s.cache.find? identifier with
  | some t =>
    rw [Setup.fetch_of_find?_eq_some hfind]
    have hknown : identifier ∈ s.cache.identifiers := by
      by_contra hunknown
      rw [Cache.find?_eq_none_iff.2 hunknown] at hfind
      cases hfind
    refine ⟨[.cacheHit identifier], ⟨Array.toList_push, .hit hknown, none, ?_, nofun⟩, ?_⟩
    · simp [Event.askedIn, Event.asked?]
    · simp [Event.MarksRender]
  | none =>
    cases hcompiled : setup.compiled identifier with
    | ok t =>
      obtain ⟨rfl, -⟩ := Setup.compiled_eq_ok_iff.1 hcompiled
      rw [Setup.fetch_of_compiled_eq_ok hfind hcompiled]
      refine ⟨[.compiled t.identifier t.nodes.length],
        ⟨Array.toList_push, ?_, none, ?_, nofun⟩, by simp [Event.MarksRender]⟩
      · have hcache : (s.cache.add t).identifiers = s.cache.identifiers ++ [t.identifier] := by
          simp [Cache.add, Cache.identifiers]
        rw [hcache]
        exact .singleton s.cache.identifiers (by simp)
      · simp [Event.askedIn, Event.asked?]
    | error failure =>
      rw [Setup.fetch_of_compiled_eq_error hfind hcompiled]
      obtain ⟨e, rfl⟩ | ⟨hload, rfl⟩ := hfailure failure hcompiled
      · refine ⟨[.compileFailed identifier e.kind e.position],
          ⟨Array.toList_push, ?_, none, ?_, nofun⟩, by simp [Event.MarksRender]⟩
        · have hfailed : ∀ other,
              Event.compileFailed identifier e.kind e.position ≠ .cacheHit other := by simp
          simpa [Event.compiled?] using Event.Accounts.singleton s.cache.identifiers hfailed
        · simp [Event.askedIn, Event.asked?]
      · refine ⟨[], ⟨by simp, .nil _, some identifier, ?_, ?_⟩, List.forall_mem_nil _⟩
        · simp [Event.askedIn]
        · rintro _ ⟨⟩
          exact ⟨hload, rfl⟩

end Run.Accounted

/-! ### Renders -/

def Setup.failureEvents {α : Type} (identifier : String) : Except Failure α → List Event
  | .error (.template e) => [.renderFailed identifier e.kind e.message]
  | _ => []

theorem Run.reporting_apply {α : Type} (identifier : String) (r : Run α) (s : Session) :
    Setup.reporting identifier r s = ((r s).1,
      { (r s).2 with
        events := (r s).2.events ++ (Setup.failureEvents identifier (r s).1).toArray }) := by
  unfold Setup.reporting
  rcases r s with ⟨(e | f | fault | fault) | a, s'⟩ <;> simp [Setup.failureEvents]

theorem Setup.accounts_failureEvents {α : Type} (identifier : String)
    (result : Except Failure α) (known : List String) :
    Event.Accounts (failureEvents identifier result) known known := by
  unfold failureEvents
  split
  · exact .mark known trivial
  · exact .nil known

theorem Setup.askedIn_failureEvents {α : Type} (identifier : String)
    (result : Except Failure α) : Event.askedIn (failureEvents identifier result) = [] := by
  unfold failureEvents
  split <;> rfl

/-- The sources are held in memory. -/
def Loader.InMemory (loader : Loader) : Prop :=
  ∃ sources maxSize, loader = .memory sources maxSize

section InMemory

variable {setup : Setup}

theorem Setup.accounted_fetch (h : setup.loader.InMemory) (identifier : String) :
    Run.Accounted setup.loader (setup.fetch identifier) := by
  obtain ⟨sources, maxSize, hloader⟩ := h
  obtain ⟨loader, encoding, maxDepth⟩ := setup
  subst hloader
  refine Run.Accounted.fetch fun failure hfailure => ?_
  have hrefuses := refuses_of_compiled hfailure
  obtain ⟨e, rfl, -⟩ | ⟨rfl, -⟩ := exists_blames_of_refuses hrefuses
  · exact .inl ⟨e, rfl⟩
  · cases hrefuses with
    | unavailable hload => exact .inr ⟨hload, rfl⟩

/-- A render in a record begins with its own event, and ends with one if it ends in a template
error. The events between mark no render. -/
theorem Setup.exists_reports_render (h : setup.loader.InMemory) (identifier : String)
    {context : Datum} {fields : List (String × Value)}
    (hbind : context.bind = .ok (.record fields)) (s : Session) :
    ∃ between, (∀ event ∈ between, ¬ event.MarksRender) ∧
      setup.loader.Reports s (setup.render identifier context s)
        (.renderStarted identifier :: between ++
          failureEvents identifier (setup.render identifier context s).1) := by
  have hwalk : Run.Accounted setup.loader (do
      let t ← setup.fetch identifier
      setup.renderNodes setup.maxDepth setup.maxDepth ⟨.record fields, none⟩ t.nodes) :=
    (Run.Accounted.walking _).bind_self (setup.accounted_fetch h identifier) fun t =>
      (Run.Accounted.walking _).renderNodes_self (setup.accounted_fetch h) _ _
        (fun _ _ => trivial) t.nodes
  have hrender : setup.render identifier context s = reporting identifier (do
      let t ← setup.fetch identifier
      setup.renderNodes setup.maxDepth setup.maxDepth ⟨.record fields, none⟩ t.nodes)
      { s with events := s.events.push (.renderStarted identifier) } := by
    rw [render, hbind]
    rfl
  obtain ⟨between, ⟨hevents, haccounts, dropped, hrequests, hdropped⟩, hmarks⟩ :=
    hwalk { s with events := s.events.push (.renderStarted identifier) }
  have hstarted : Event.Accounts [.renderStarted identifier] s.cache.identifiers
      s.cache.identifiers := .mark _ trivial
  rw [hrender, Run.reporting_apply]
  refine ⟨between, hmarks, ?_, ?_, dropped, ?_, hdropped⟩
  · simp [hevents]
  · exact (hstarted.append haccounts).append (accounts_failureEvents identifier _ _)
  · rw [hrequests, List.cons_append, Event.askedIn, Event.askedIn, List.filterMap_cons,
      List.filterMap_append, ← Event.askedIn, ← Event.askedIn, askedIn_failureEvents,
      List.append_nil]
    rfl

/-- A render in anything else ends at once and leaves no trace: it is refused, or its context
cannot be bound. -/
theorem Setup.render_of_not_record (setup : Setup) (identifier : String) {context : Datum}
    (h : ∀ fields, context.bind ≠ .ok (.record fields)) (s : Session) :
    ∃ failure, setup.render identifier context s = (.error failure, s) ∧
      ∀ v, context.bind = .ok v → failure = .template (misshapen identifier context) := by
  rw [render]
  match hbind : context.bind with
  | .error failure => exact ⟨failure, rfl, nofun⟩
  | .ok (.record fields) => exact absurd hbind (h fields)
  | .ok (.bool _) | .ok (.seq _) | .ok (.text _) | .ok (.scalar _) | .ok (.lambda _)
  | .ok .absent => exact ⟨_, rfl, fun _ _ => rfl⟩

theorem Setup.exists_reports (h : setup.loader.InMemory) (identifier : String)
    (context : Datum) (s : Session) : ∃ events,
      setup.loader.Reports s (setup.render identifier context s) events := by
  by_cases hrecord : ∃ fields, context.bind = .ok (.record fields)
  · obtain ⟨fields, hbind⟩ := hrecord
    obtain ⟨between, -, hreports⟩ := setup.exists_reports_render h identifier hbind s
    exact ⟨_, hreports⟩
  · obtain ⟨failure, hrender, -⟩ := setup.render_of_not_record identifier (not_exists.1 hrecord) s
    rw [hrender]
    exact ⟨[], by simp, .nil _, none, by simp [Event.askedIn], nofun⟩

end InMemory

/-! ### Steps -/

namespace Engine

/-- The events of a step account for what it caches and asks for. Behind that it may have asked
for a source without an encoding. -/
structure Accounts (engine : Engine) (s : Step) : Prop where
  events : Event.Accounts (engine.step s).1.session.events.toList engine.cache.identifiers
    (engine.step s).2.cache.identifiers
  requests : ∃ dropped : Option String, (engine.outcome s).session.requests.toList =
    Event.askedIn (engine.outcome s).session.events.toList ++ dropped.toList ∧
    ∀ identifier ∈ dropped, engine.setup.loader.Drops identifier (engine.outcome s).result

end Engine

end Mustache
