import DeliveryPipeline.Proofs.Pipeline.Completion
import Mathlib.Data.List.Basic

/-!
# Where the schema of a build comes from

A schema that is registered for the base profile is taken without a look at the descriptors. Else
the first descriptor of the reserved target with a payload decides: its text is read, or the build
fails, and the descriptors behind it are never looked at. The payload of a descriptor is its
parameter, or its resource where the parameter is missing or blank. But only a missing parameter
lets the resource be seen. A blank one hides it, so a descriptor may be passed over that has a
payload.
-/
namespace DeliveryPipeline

namespace Descriptor

/-- The selector names the reserved target of schemas. -/
def IsSchema (d : Descriptor) : Prop :=
  d.parsedSelector.target? = some schemaTarget

instance (d : Descriptor) : Decidable d.IsSchema :=
  inferInstanceAs (Decidable (d.parsedSelector.target? = some schemaTarget))

/-- The parameter if it is there and not blank, else the resource if it is. -/
def payload? (d : Descriptor) : Option String :=
  ((d.parameter? inlineSchemaParameter).filter (!Text.isBlankText ·)).or
    (d.resource.filter (!Text.isBlankText ·))

/-- A blank parameter stands before a resource that is not blank. -/
def hidesResource (d : Descriptor) : Bool :=
  (d.parameter? inlineSchemaParameter).any Text.isBlankText &&
    d.resource.any (!Text.isBlankText ·)

/-- The payload that is not hidden. -/
def shownPayload? (d : Descriptor) : Option String :=
  if d.hidesResource then none else d.payload?

theorem filter_or_eq_shownPayload? (d : Descriptor) :
    ((d.parameter? inlineSchemaParameter).or d.resource).filter (!Text.isBlankText ·) =
      d.shownPayload? := by
  unfold shownPayload? hidesResource payload?
  cases d.parameter? inlineSchemaParameter with
  | none => simp
  | some inline =>
    cases hinline : Text.isBlankText inline with
    | false => simp [Option.filter, hinline]
    | true =>
      cases d.resource with
      | none => simp [Option.filter, hinline]
      | some resource =>
        cases hresource : Text.isBlankText resource <;>
          simp [Option.filter, hinline, hresource]

theorem shownPayload?_of_payload?_eq_none {d : Descriptor} (h : d.payload? = none) :
    d.shownPayload? = none := by
  rw [shownPayload?, h, ite_self]

theorem shownPayload?_of_not_hidesResource {d : Descriptor} (h : d.hidesResource = false) :
    d.shownPayload? = d.payload? := by
  simp [shownPayload?, h]

theorem schemaText?_eq (d : Descriptor) :
    d.schemaText? = if d.IsSchema then d.shownPayload? else none := by
  rw [schemaText?, filter_or_eq_shownPayload?]
  rfl

theorem schemaText?_eq_some_iff {d : Descriptor} {text : String} :
    d.schemaText? = some text ↔ d.IsSchema ∧ d.shownPayload? = some text := by
  rw [schemaText?_eq]
  split
  next h => simp [h]
  next h => simp [h]

theorem schemaText?_eq_none_iff {d : Descriptor} :
    d.schemaText? = none ↔ (d.IsSchema → d.shownPayload? = none) := by
  rw [schemaText?_eq]
  split
  next h => simp [h]
  next h => simp [h]

end Descriptor

namespace Environment

/-- No schema is registered, and the descriptor is the first for a schema that carries a text, as
`payload?` tells. -/
structure Decides (env : Environment) (p : ProfileSet) (payload? : Descriptor → Option String)
    (d : Descriptor) (text : String) : Prop where
  unregistered : env.schemas.get? p.base = none
  isSchema : d.IsSchema
  carries : payload? d = some text
  first : ∃ before after, env.store.descriptors p = before ++ d :: after ∧
    ∀ b ∈ before, b.IsSchema → payload? b = none

/-- How the schema of a build is decided, if `payload?` tells the texts that descriptors carry. -/
inductive SchemaChoice (env : Environment) (p : ProfileSet)
    (payload? : Descriptor → Option String) : Except Error (Option Schema) → Prop
  /-- The registered schema is taken, whatever the store holds. -/
  | registered {s : Schema} (hs : env.schemas.get? p.base = some s) :
    SchemaChoice env p payload? (.ok (some s))
  /-- The first payload is read. Nothing is asked of the descriptors behind it. -/
  | read {d : Descriptor} {text : String} {dtd : Dtd} (hd : env.Decides p payload? d text)
    (hparse : Dtd.parse text = .ok dtd) : SchemaChoice env p payload? (.ok (some dtd.schema))
  /-- The first payload is refused, and none behind it takes its place. -/
  | refused {d : Descriptor} {text : String} {fault : Dtd.Fault}
    (hd : env.Decides p payload? d text) (hparse : Dtd.parse text = .error fault) :
    SchemaChoice env p payload? (.error (.configuration (.invalidSchema d fault)))
  /-- There is no schema where none is registered and no descriptor for one carries a text. -/
  | absent (hs : env.schemas.get? p.base = none)
    (hall : ∀ d ∈ env.store.descriptors p, d.IsSchema → payload? d = none) :
    SchemaChoice env p payload? (.ok none)

variable {env : Environment} {p : ProfileSet} {d : Descriptor} {text : String}

/-- Unless a schema is registered, some payload decides or there is none. -/
theorem exists_decides_or (payload? : Descriptor → Option String)
    (hs : env.schemas.get? p.base = none) :
    (∃ d text, env.Decides p payload? d text) ∨
      ∀ d ∈ env.store.descriptors p, d.IsSchema → payload? d = none := by
  cases hfirst : (env.store.descriptors p).find? fun d =>
    decide d.IsSchema && (payload? d).isSome with
  | none =>
    refine .inr fun d hd hschema => ?_
    simpa [hschema] using List.find?_eq_none.1 hfirst d hd
  | some d =>
    obtain ⟨hd, before, after, hds, hmissed⟩ := List.find?_eq_some_iff_append.1 hfirst
    simp only [Bool.and_eq_true, decide_eq_true_eq, Option.isSome_iff_exists] at hd
    obtain ⟨hschema, text, htext⟩ := hd
    refine .inl ⟨d, text, hs, hschema, htext, before, after, hds, fun b hb hb' => ?_⟩
    simpa [hb'] using hmissed b hb

/-- The rule always comes to a decision. -/
theorem exists_schemaChoice (env : Environment) (p : ProfileSet)
    (payload? : Descriptor → Option String) : ∃ r, env.SchemaChoice p payload? r := by
  cases hs : env.schemas.get? p.base with
  | some s => exact ⟨_, .registered hs⟩
  | none =>
    rcases exists_decides_or payload? hs with ⟨d, text, hd⟩ | hall
    · cases hparse : Dtd.parse text with
      | ok dtd => exact ⟨_, .read hd hparse⟩
      | error fault => exact ⟨_, .refused hd hparse⟩
    · exact ⟨_, .absent hs hall⟩

/-- A payload that decides and is not hidden decides among the shown ones. -/
theorem Decides.shown (h : env.Decides p Descriptor.payload? d text)
    (hshown : d.hidesResource = false) : env.Decides p Descriptor.shownPayload? d text := by
  obtain ⟨before, after, hds, hbefore⟩ := h.first
  refine ⟨h.unregistered, h.isSchema, ?_, before, after, hds, fun b hb hschema => ?_⟩
  · rw [Descriptor.shownPayload?_of_not_hidesResource hshown, h.carries]
  · exact Descriptor.shownPayload?_of_payload?_eq_none (hbefore b hb hschema)

/-- What is decided by the payloads is decided by the shown ones, unless the deciding
one is hidden. -/
theorem SchemaChoice.shown {r : Except Error (Option Schema)}
    (hshown : ∀ d text, env.Decides p Descriptor.payload? d text → d.hidesResource = false)
    (h : env.SchemaChoice p Descriptor.payload? r) :
    env.SchemaChoice p Descriptor.shownPayload? r := by
  cases h with
  | registered hs => exact .registered hs
  | read hd hparse => exact .read (hd.shown (hshown _ _ hd)) hparse
  | refused hd hparse => exact .refused (hd.shown (hshown _ _ hd)) hparse
  | absent hs hall =>
    refine .absent hs fun d hd hschema => ?_
    exact Descriptor.shownPayload?_of_payload?_eq_none (hall d hd hschema)

/-- The search finds the first shown payload. -/
theorem decides_shownPayload?_iff (hs : env.schemas.get? p.base = none) :
    env.Decides p Descriptor.shownPayload? d text ↔
      ((env.store.descriptors p).findSome? fun d => d.schemaText?.map fun text => (d, text)) =
        some (d, text) := by
  rw [List.findSome?_eq_some_iff]
  simp only [Option.map_eq_some_iff, Option.map_eq_none_iff, Prod.mk.injEq,
    Descriptor.schemaText?_eq_some_iff, Descriptor.schemaText?_eq_none_iff]
  constructor
  · rintro ⟨-, hschema, htext, before, after, hds, hbefore⟩
    exact ⟨before, d, after, hds, ⟨text, ⟨hschema, htext⟩, rfl, rfl⟩, hbefore⟩
  · rintro ⟨before, d', after, hds, ⟨text', ⟨hschema, htext⟩, rfl, rfl⟩, hbefore⟩
    exact ⟨hs, hschema, htext, before, after, hds, hbefore⟩

theorem no_shownPayload?_iff :
    (∀ d ∈ env.store.descriptors p, d.IsSchema → d.shownPayload? = none) ↔
      ((env.store.descriptors p).findSome? fun d => d.schemaText?.map fun text => (d, text)) =
        none := by
  simp only [List.findSome?_eq_none_iff, Option.map_eq_none_iff,
    Descriptor.schemaText?_eq_none_iff]

/-- The schema that a build finds is the one that the shown payloads decide. -/
theorem schemaChoice_iff {r : Except Error (Option Schema)} :
    env.SchemaChoice p Descriptor.shownPayload? r ↔
      env.schemaFor p (env.store.descriptors p) = r := by
  constructor
  · intro h
    unfold schemaFor
    cases h with
    | registered hs => rw [hs]
    | read hd hparse =>
      simp only [hd.unregistered, (decides_shownPayload?_iff hd.unregistered).1 hd, hparse]
    | refused hd hparse =>
      simp only [hd.unregistered, (decides_shownPayload?_iff hd.unregistered).1 hd, hparse]
    | absent hs hall => simp only [hs, no_shownPayload?_iff.1 hall]
  · rintro rfl
    unfold schemaFor
    split
    next s hs => exact .registered hs
    next hs =>
      split
      next hnone => exact .absent hs (no_shownPayload?_iff.2 hnone)
      next d text hfirst =>
        have hd := (decides_shownPayload?_iff hs).2 hfirst
        split
        next dtd hparse => exact .read hd hparse
        next fault hparse => exact .refused hd hparse

/-- A build without a schema to go on ends before anything is called. -/
theorem build_of_schemaFor_error {e : Error}
    (h : env.schemaFor p (env.store.descriptors p) = .error e) (extra : Option Classification) :
    env.build p extra = ⟨[], .error e⟩ := by
  have hdraft : env.draft p (env.store.descriptors p) = .error e := by
    rw [draft, h]
    rfl
  rw [build, buildFrom, hdraft]

theorem schemaFor_of_build {extra : Option Classification} {q : Pipeline}
    (h : (env.build p extra).result = .ok q) :
    env.schemaFor p (env.store.descriptors p) = .ok q.schema := by
  obtain ⟨d, hd, hq⟩ := buildFrom_eq_ok h
  obtain ⟨table, hschema, -, -⟩ := draft_eq_ok hd
  obtain ⟨requested, -, -, heq⟩ := assemble_eq_ok hq
  have hsame : q.schema = d.schema := congrArg Pipeline.schema heq
  rw [hschema, hsame]

/-- The schema of a build is decided by the first shown payload, and so by the first payload of all
unless this is hidden. If the deciding payload is refused, every build fails with that error before
it calls anything. A build that gives a pipeline puts the schema into it. -/
theorem schema_decided (env : Environment) (p : ProfileSet) :
    let found := env.schemaFor p (env.store.descriptors p)
    (∀ r, env.SchemaChoice p Descriptor.shownPayload? r ↔ found = r) ∧
    ((∀ d text, env.Decides p Descriptor.payload? d text → d.hidesResource = false) →
      ∀ r, env.SchemaChoice p Descriptor.payload? r ↔ found = r) ∧
    ∀ extra, (∀ e, found = .error e → env.build p extra = ⟨[], .error e⟩) ∧
      ∀ q, (env.build p extra).result = .ok q → found = .ok q.schema := by
  intro found
  refine ⟨fun r => schemaChoice_iff, fun hshown r => ?_,
    fun extra => ⟨fun e he => ?_, fun q hq => ?_⟩⟩
  · constructor
    · exact fun h => schemaChoice_iff.1 (h.shown hshown)
    · rintro rfl
      obtain ⟨r, hr⟩ := exists_schemaChoice env p Descriptor.payload?
      have hfound : found = r := schemaChoice_iff.1 (hr.shown hshown)
      rwa [hfound]
  · exact build_of_schemaFor_error he extra
  · exact schemaFor_of_build hq

/-- A descriptor for a schema without a payload. -/
def blankDescriptor : Descriptor := { selector := "schema", resource := some " " }

/-- A payload that can be read. -/
def breakDescriptor : Descriptor :=
  { selector := "html/schema", resource := some "<!ELEMENT br EMPTY>" }

/-- A payload that is refused. -/
def bareDescriptor : Descriptor := { selector := "schema", resource := some "br" }

/-- The payload that can be read decides where it comes first, and the other one where it does. -/
theorem schema_decided_by_first_payload :
    (∃ s, (({} : Environment).withStored
        [blankDescriptor, breakDescriptor, bareDescriptor]).schemaFor ⟨"html", []⟩
        [blankDescriptor, breakDescriptor, bareDescriptor] = .ok (some s) ∧
      s.classify .empty = ["br"]) ∧
    (({} : Environment).withStored [blankDescriptor, bareDescriptor, breakDescriptor]).build
        ⟨"html", []⟩ none =
      ⟨[], .error (.configuration (.invalidSchema bareDescriptor .noElements))⟩ := by
  have hblank : ∀ b ∈ [blankDescriptor], b.IsSchema → b.payload? = none := by decide +kernel
  constructor
  · have hstored : (({} : Environment).withStored
        [blankDescriptor, breakDescriptor, bareDescriptor]).store.descriptors ⟨"html", []⟩ =
          [blankDescriptor] ++ breakDescriptor :: [bareDescriptor] := by decide +kernel
    have hshown : ∀ d ∈ [blankDescriptor] ++ breakDescriptor :: [bareDescriptor],
        d.hidesResource = false := by decide +kernel
    have hparse : Dtd.parse "<!ELEMENT br EMPTY>" = .ok ⟨[("br", .empty)]⟩ := by decide +kernel
    obtain ⟨-, hdecides, -⟩ := schema_decided
      (({} : Environment).withStored [blankDescriptor, breakDescriptor, bareDescriptor])
      ⟨"html", []⟩
    refine ⟨Dtd.schema ⟨[("br", .empty)]⟩, ?_, by decide⟩
    refine (hdecides ?_ _).1 (.read ⟨rfl, by decide +kernel, rfl, _, _, hstored, hblank⟩ hparse)
    intro d text hd
    obtain ⟨before, after, hds, -⟩ := hd.first
    exact hshown d (by rw [← hstored, hds]; simp)
  · have hstored : (({} : Environment).withStored
        [blankDescriptor, bareDescriptor, breakDescriptor]).store.descriptors ⟨"html", []⟩ =
          [blankDescriptor] ++ bareDescriptor :: [breakDescriptor] := by decide +kernel
    have hparse : Dtd.parse "br" = .error .noElements := by decide +kernel
    obtain ⟨hdecides, -, hbuild⟩ := schema_decided
      (({} : Environment).withStored [blankDescriptor, bareDescriptor, breakDescriptor])
      ⟨"html", []⟩
    refine (hbuild none).1 _ ((hdecides _).1 ?_)
    exact .refused ⟨rfl, by decide +kernel, rfl, _, _, hstored, by decide +kernel⟩ hparse

/-- A blank parameter before a resource that declares an element. -/
def hidingDescriptor : Descriptor :=
  { selector := "schema", resource := some "<!ELEMENT br EMPTY>",
    parameters := Dictionary.empty.set inlineSchemaParameter " " }

/-- The resource is the payload, and yet there is no schema. -/
theorem schema_of_hidingDescriptor :
    (∃ s, (({} : Environment).withStored [hidingDescriptor]).SchemaChoice ⟨"html", []⟩
      Descriptor.payload? (.ok (some s)) ∧ s.classify .empty = ["br"]) ∧
    ∃ q, ((({} : Environment).withStored [hidingDescriptor]).build ⟨"html", []⟩ none).result =
      .ok q ∧ q.schema.isNone = true := by
  constructor
  · have hstored : (({} : Environment).withStored [hidingDescriptor]).store.descriptors
        ⟨"html", []⟩ = [] ++ hidingDescriptor :: [] := by decide +kernel
    have hparse : Dtd.parse "<!ELEMENT br EMPTY>" = .ok ⟨[("br", .empty)]⟩ := by decide +kernel
    refine ⟨Dtd.schema ⟨[("br", .empty)]⟩, ?_, by decide⟩
    exact .read ⟨rfl, by decide +kernel, by decide +kernel, _, _, hstored, by simp⟩ hparse
  · have hbuilt : ((({} : Environment).withStored [hidingDescriptor]).build ⟨"html", []⟩
        none).result.toOption.map (·.schema.isNone) = some true := by decide +kernel
    exact Error.map_toOption_eq_some_iff.1 hbuilt

end Environment

end DeliveryPipeline
