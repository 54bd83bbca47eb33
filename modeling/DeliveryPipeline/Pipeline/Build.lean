import DeliveryPipeline.Digest
import DeliveryPipeline.Extraction
import DeliveryPipeline.Factory.Declared
import DeliveryPipeline.Pipeline
import DeliveryPipeline.Resolution
import DeliveryPipeline.Store

/-!
# Building a pipeline

A build reads the descriptors of a profile set, finds their schema, lists them in a table and makes
their handlers. Then it tells the listeners, merges the handlers handed in, resolves the strategy,
and tells the listeners again. An outcome holds the calls made along with the pipeline or the error.
-/
namespace DeliveryPipeline

abbrev SchemaRegistry := Dictionary Schema

def SchemaRegistry.describe (r : SchemaRegistry) : String :=
  Text.described "SchemaStore" [("profiles", Text.bracketed (r.keys.map Text.quoted))]

structure Environment where
  store : Store := {}
  factories : FactoryRegistry := FactoryRegistry.builtin
  schemas : SchemaRegistry := Dictionary.empty
  listeners : List Listener := []
  maxExpansions : Nat := 10000

/-- The global parameter that turns the sorting of handler lists off. -/
def sortHandlersParameter : String := "handlers.sort"

def inlineSchemaParameter : String := "inline"

/-- The schema text of a descriptor for the reserved target: the parameter if there is one, else the
resource, unless that is blank. -/
def Descriptor.schemaText? (d : Descriptor) : Option String :=
  if d.parsedSelector.target? = some schemaTarget then
    ((d.parameter? inlineSchemaParameter).or d.resource).filter fun text => !Text.isBlankText text
  else none

/-- What a build knows when its handlers are created. -/
structure Draft where
  digest : String
  schema : Option Schema
  extraction : Extraction

namespace Draft

/-- The handlers of a build with those handed in, before they are sorted. -/
def merged (d : Draft) (extra : Option Classification) : Classification :=
  extra.elim d.extraction.classification d.extraction.classification.merge

/-- The strategy that a build chooses for its handlers and those handed in. -/
def chosenStrategy (d : Draft) (extra : Option Classification) : Except Error Strategy := do
  (d.merged extra).resolve (← d.extraction.table.requestedStrategy)

/-- What is assembled from a draft for a strategy. -/
def pipeline (d : Draft) (p : ProfileSet) (extra : Option Classification) (s : Strategy) :
    Pipeline where
  profiles := p
  strategy := s
  classification :=
    if d.extraction.table.globalFlag sortHandlersParameter true then (d.merged extra).sort p
    else d.merged extra
  table := d.extraction.table
  schema := d.schema
  digest := d.digest
  events := d.extraction.events ++ [
    Event.note ("handler characteristics:\n" ++ (d.merged extra).report),
    Event.note ("using " ++ s.name ++ " strategy")]

end Draft

namespace Environment

/-- The schema registered for the base profile, else the schema of the first descriptor that carries
one. -/
def schemaFor (env : Environment) (p : ProfileSet) (ds : List Descriptor) :
    Except Error (Option Schema) :=
  match env.schemas.get? p.base with
  | some s => .ok (some s)
  | none =>
    match ds.findSome? fun d => d.schemaText?.map fun text => (d, text) with
    | none => .ok none
    | some (d, text) =>
      match Dtd.parse text with
      | .ok dtd => .ok (some dtd.schema)
      | .error fault => .error (.configuration (.invalidSchema d fault))

/-- The workshop that makes the handlers of a profile set. -/
def workshop (env : Environment) (p : ProfileSet) (schema : Option Schema) : Workshop :=
  { factories := env.factories, profiles := p, schema, maxExpansions := env.maxExpansions }

/-- The build up to the creation of its handlers, from the descriptors of a profile set. -/
def draft (env : Environment) (p : ProfileSet) (ds : List Descriptor) : Except Error Draft := do
  let schema ← env.schemaFor p ds
  let table ← DescriptorTable.build p schema ds
  ((env.workshop p schema).extract table).map (Draft.mk (descriptorDigest ds) schema)

/-- The listeners of a build: the registered ones, then the created handlers that listen. -/
def listenersOf (env : Environment) (d : Draft) : List Listener :=
  env.listeners ++ d.extraction.created.filterMap Creation.listener

/-- A pipeline is assembled as soon as its strategy is chosen. -/
def assemble (p : ProfileSet) (extra : Option Classification) (d : Draft) :
    Except Error Pipeline :=
  (d.chosenStrategy extra).map (d.pipeline p extra)

/-- A build from the creation of its handlers on. -/
def complete (env : Environment) (p : ProfileSet) (extra : Option Classification) (d : Draft) :
    Outcome Pipeline :=
  let listeners := env.listenersOf d
  let first := notify .handlersCreated p listeners
  match first.result with
  | .error e => ⟨first.calls, .error e⟩
  | .ok () =>
    match assemble p extra d with
    | .error e => ⟨first.calls, .error e⟩
    | .ok pipeline =>
      let second := notify .pipelineCreated p listeners
      ⟨first.calls ++ second.calls, second.result.map fun _ => pipeline⟩

/-- Build a pipeline from the descriptors of a profile set, with further handlers if some are handed
in. -/
def buildFrom (env : Environment) (p : ProfileSet) (ds : List Descriptor)
    (extra : Option Classification) : Outcome Pipeline :=
  match env.draft p ds with
  | .error e => ⟨[], .error e⟩
  | .ok draft => env.complete p extra draft

/-- Build the pipeline of a profile set from the descriptors that the store holds for it. -/
def build (env : Environment) (p : ProfileSet) (extra : Option Classification) :
    Outcome Pipeline :=
  env.buildFrom p (env.store.descriptors p) extra

end Environment

end DeliveryPipeline
