import Mustache.Proofs.Run

/-! Why an identifier is refused. Its source is missing or too large, or does not become bytes,
or these are no text in the encoding, or the text is malformed. Main results: the list of these
ways, from which all that is said about refusals is taken, and that over sources in memory the
error of a fetch tells the identifier, and where the source is malformed or what it was that
could not be read; a text with half of a surrogate pair is the exception. -/

namespace Mustache

open Template

/-! ### The ways -/

theorem CodePoint.exists_half_of_mapM_char? {points : List CodePoint}
    (h : points.mapM char? = none) : ∃ index, .half index ∈ points := by
  induction points with
  | nil => cases h
  | cons point rest ih =>
    cases point with
    | half index => exact ⟨index, List.mem_cons_self⟩
    | char c =>
      rw [List.mapM_cons] at h
      cases hrest : rest.mapM char? with
      | none =>
        obtain ⟨index, hindex⟩ := ih hrest
        exact ⟨index, List.mem_cons_of_mem _ hindex⟩
      | some characters => simp [hrest, char?] at h

/-- A source in memory does not become bytes only if it is a text with half of a pair. -/
theorem Source.encode_eq_error {source : Source} {fault : BytesFault}
    (h : source.encode = .error fault) :
    fault = .unencodable ∧ ∃ points index, source = .text points ∧ .half index ∈ points := by
  cases source with
  | bytes content => cases h
  | text points =>
    rw [Source.encode] at h
    split at h
    · cases h
    · rename_i hnone
      cases h
      obtain ⟨index, hindex⟩ := CodePoint.exists_half_of_mapM_char? hnone
      exact ⟨rfl, points, index, rfl, hindex⟩

namespace Loader

variable {identifier : String} {failure : Failure}

theorem checkSize_eq_error {maxSize : Nat} {bytes : List UInt8}
    (h : checkSize identifier maxSize bytes = .error failure) :
    failure = oversized maxSize identifier := by
  unfold checkSize at h
  split at h <;> cases h
  rfl

/-- A source in memory is refused for being missing, for its size, or for being a text with
half of a pair. -/
theorem load_memory_eq_error {sources : List (String × Source)} {maxSize : Nat}
    (h : (memory sources maxSize).load identifier = .error failure) :
    failure = notFound identifier ∨ failure = oversized maxSize identifier ∨
      failure = .bytes .unencodable ∧ ∃ points index,
        Fields.find? identifier sources = some (.text points) ∧ .half index ∈ points := by
  rw [load] at h
  split at h
  · cases h
    exact .inl rfl
  · rename_i source hfind
    split at h
    · rename_i hencode
      cases h
      obtain ⟨rfl, points, index, rfl, hindex⟩ := Source.encode_eq_error hencode
      exact .inr (.inr ⟨rfl, points, index, hfind, hindex⟩)
    · exact .inr (.inl (checkSize_eq_error h))

/-- A file may also be refused for not being opened, for its path, or for its limit. -/
theorem load_eq_error {loader : Loader} (h : loader.load identifier = .error failure) :
    failure = notFound identifier ∨ (∃ limit, failure = oversized limit identifier) ∨
      (∃ place fault, failure = unopened place fault identifier) ∨
      (∃ fault, failure = .path fault) ∨ ∃ fault, failure = .bytes fault := by
  cases loader with
  | memory sources maxSize =>
    obtain hmissing | hsize | ⟨hbytes, -⟩ := load_memory_eq_error h
    · exact .inl hmissing
    · exact .inr (.inl ⟨maxSize, hsize⟩)
    · exact .inr (.inr (.inr (.inr ⟨_, hbytes⟩)))
  | files host tree searchPath extension maxSize =>
    rw [load] at h
    split at h
    · rename_i fault _
      cases h
      exact .inr (.inr (.inr (.inl ⟨fault, rfl⟩)))
    · cases h
      exact .inl rfl
    · rename_i place _
      split at h
      · cases h
        exact .inr (.inr (.inr (.inl ⟨.nulCharacter, rfl⟩)))
      · rename_i fault _ _
        cases h
        exact .inr (.inr (.inl ⟨place, fault, rfl⟩))
      · split at h
        · rename_i fault _
          cases h
          exact .inr (.inr (.inr (.inr ⟨fault, rfl⟩)))
        · exact .inr (.inl ⟨maxSize, checkSize_eq_error h⟩)

end Loader

theorem Template.decode_eq_error {encoding identifier : String} {bytes : List UInt8}
    {e : TemplateError} (h : decode encoding identifier bytes = .error e) :
    e = undecodable encoding identifier ∨ e = unknownEncoding encoding identifier := by
  unfold decode at h
  split at h
  · cases h
  · split at h
    · cases h
      exact .inr rfl
    · split at h
      · cases h
        exact .inl rfl
      · cases h

namespace Setup

def HasSource (setup : Setup) (identifier : String) (source : List Char) : Prop :=
  ∃ bytes, setup.loader.load identifier = .ok bytes ∧
    decode setup.encoding identifier bytes = .ok source

theorem HasSource.unique {setup : Setup} {identifier : String} {source source' : List Char}
    (h : setup.HasSource identifier source) (h' : setup.HasSource identifier source') :
    source = source' := by
  obtain ⟨bytes, hload, hdecode⟩ := h
  obtain ⟨bytes', hload', hdecode'⟩ := h'
  obtain rfl := Except.ok.inj (hload.symm.trans hload')
  exact Except.ok.inj (hdecode.symm.trans hdecode')

/-- The ways in which an identifier is refused, with the failure that tells of it. -/
inductive Refuses (setup : Setup) (identifier : String) : Failure → Prop
  | unavailable {failure : Failure} :
      setup.loader.load identifier = .error failure → Refuses setup identifier failure
  | undecodable :
      Refuses setup identifier (.template (Template.undecodable setup.encoding identifier))
  | unknownEncoding :
      Refuses setup identifier (.template (Template.unknownEncoding setup.encoding identifier))
  | malformed {source : List Char} {e : SyntaxError} :
      setup.HasSource identifier source → parse setup.maxDepth source = .error e →
      Refuses setup identifier
        (.template ((TemplateError.ofSyntaxIn source e).inTemplate identifier))

theorem refuses_of_compiled {setup : Setup} {identifier : String} {failure : Failure}
    (h : setup.compiled identifier = .error failure) : setup.Refuses identifier failure := by
  unfold compiled Template.compile at h
  cases hload : setup.loader.load identifier with
  | error failure' =>
    obtain rfl : failure' = failure := by simpa [hload, Except.bind] using h
    exact .unavailable hload
  | ok bytes =>
    cases hdecode : decode setup.encoding identifier bytes with
    | error e =>
      obtain rfl : .template e = failure := by
        simpa [hload, hdecode, Except.bind, Except.mapError] using h
      obtain rfl | rfl := decode_eq_error hdecode
      · exact .undecodable
      · exact .unknownEncoding
    | ok source =>
      cases hparse : parse setup.maxDepth source with
      | error e =>
        obtain rfl : .template ((TemplateError.ofSyntaxIn source e).inTemplate identifier) =
            failure := by
          simpa [hload, hdecode, hparse, Except.bind, Except.mapError] using h
        exact .malformed ⟨bytes, hload, hdecode⟩ hparse
      | ok nodes => simp [hload, hdecode, hparse, Except.bind, Except.mapError] at h

end Setup

/-! ### What an error tells -/

/-- Whether an error wraps the fault of something below. -/
def Trouble.hasCause : Trouble → Bool
  | .unreadable cause => cause.isSome
  | .sink cause => cause.isSome
  | .notFound | .oversized _ | .outOfMemory | .shape | .defect _ => false

/-- The error arose from the source of `identifier` and says so. It has an offset and a
position counted from one just if the source is malformed, and a cause just if the source
could not be read. -/
structure TemplateError.Blames (e : TemplateError) (identifier : String) : Prop where
  identifier : e.identifier = some identifier
  offset : e.offset.isSome ↔ e.trouble.isSyntactic
  position : if e.trouble.isSyntactic then 1 ≤ e.position.line ∧ 1 ≤ e.position.column
    else e.position = .unknown
  cause : e.trouble.hasCause ↔ e.kind = .sourceReadFailure

theorem TemplateError.blames_ofSyntaxIn (source : List Char) (e : SyntaxError)
    (identifier : String) : ((ofSyntaxIn source e).inTemplate identifier).Blames identifier where
  identifier := rfl
  offset := ⟨fun _ => rfl, fun _ => rfl⟩
  position := LineIndex.one_le_position _ _
  cause := by
    obtain ⟨defect, offset⟩ := e
    cases defect <;> exact ⟨nofun, nofun⟩

/-- What an identifier over sources in memory is refused for blames it, unless its source is a
text with half of a pair. -/
theorem Setup.exists_blames_of_refuses {sources : List (String × Source)}
    {maxSize maxDepth : Nat} {encoding identifier : String} {failure : Failure}
    (h : Refuses ⟨.memory sources maxSize, encoding, maxDepth⟩ identifier failure) :
    (∃ e, failure = .template e ∧ e.Blames identifier) ∨
      failure = .bytes .unencodable ∧ ∃ points index,
        Fields.find? identifier sources = some (.text points) ∧ .half index ∈ points := by
  cases h with
  | unavailable hload =>
    obtain rfl | rfl | hbytes := Loader.load_memory_eq_error hload
    · exact .inl ⟨_, rfl, rfl, ⟨nofun, nofun⟩, rfl, ⟨nofun, nofun⟩⟩
    · exact .inl ⟨_, rfl, rfl, ⟨nofun, nofun⟩, rfl, ⟨nofun, nofun⟩⟩
    · exact .inr hbytes
  | undecodable => exact .inl ⟨_, rfl, rfl, ⟨nofun, nofun⟩, rfl, ⟨fun _ => rfl, fun _ => rfl⟩⟩
  | unknownEncoding =>
    exact .inl ⟨_, rfl, rfl, ⟨nofun, nofun⟩, rfl, ⟨fun _ => rfl, fun _ => rfl⟩⟩
  | malformed => exact .inl ⟨_, rfl, TemplateError.blames_ofSyntaxIn _ _ identifier⟩

/-- Over sources in memory a fetch yields the template of its identifier, or it ends in an
error that blames it, whatever is cached, the size limit, the encoding and the nesting limit.
Only a source that is a text with half of a surrogate pair ends it in another way. -/
theorem Engine.fetch_blames (sources : List (String × Source)) (maxSize : Nat)
    (encoding : String) (maxDepth : Nat) (cache : Cache) (identifier : String) :
    let engine : Engine := ⟨⟨.memory sources maxSize, encoding, maxDepth⟩, cache⟩
    let out := engine.outcome (.fetch identifier)
    (∃ t, out.result = .ok (some t) ∧ t.identifier = identifier) ∨
      (∃ e, out.result = .error (.template e) ∧ e.Blames identifier) ∨
      out.result = .error (.bytes .unencodable) ∧ cache.find? identifier = none ∧
        ∃ points index, Fields.find? identifier sources = some (.text points) ∧
          .half index ∈ points := by
  intro engine out
  have hresult : out.result =
      (engine.setup.fetch identifier (.start cache .unlimited)).1.map some := rfl
  have hcache : (Session.start cache .unlimited).cache = cache := rfl
  cases hfind : cache.find? identifier with
  | some t =>
    rw [Setup.fetch_of_find?_eq_some (hcache ▸ hfind)] at hresult
    exact .inl ⟨t, hresult, Cache.identifier_of_find?_eq_some hfind⟩
  | none =>
    cases hcompiled : engine.setup.compiled identifier with
    | ok t =>
      rw [Setup.fetch_of_compiled_eq_ok (hcache ▸ hfind) hcompiled] at hresult
      exact .inl ⟨t, hresult, (Setup.compiled_eq_ok_iff.1 hcompiled).1⟩
    | error failure =>
      rw [Setup.fetch_of_compiled_eq_error (hcache ▸ hfind) hcompiled] at hresult
      obtain ⟨e, rfl, hblames⟩ | ⟨rfl, hhalf⟩ :=
        Setup.exists_blames_of_refuses (Setup.refuses_of_compiled hcompiled)
      · exact .inr (.inl ⟨e, hresult, hblames⟩)
      · exact .inr (.inr ⟨hresult, rfl, hhalf⟩)

/-- A source of half a surrogate pair ends a fetch in what is no template error. -/
theorem Engine.fetch_halfPair : ((fresh ⟨.memory [("a", .text [.half 0])] 9, "utf-8", 3⟩).outcome
    (.fetch "a")).result = .error (.bytes .unencodable) := by cbv

end Mustache
