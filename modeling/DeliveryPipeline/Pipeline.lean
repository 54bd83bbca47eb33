import DeliveryPipeline.Classification
import DeliveryPipeline.DescriptorTable
import DeliveryPipeline.Diagnostics
import DeliveryPipeline.Schema
import DeliveryPipeline.Text.Quoted

/-!
# Pipelines

A pipeline is the finished outcome of a build for one profile set. Its summary is a data value, and
its plan a text of several lines. Both carry an identifier that the outer layer draws.
-/
namespace DeliveryPipeline

structure Pipeline where
  profiles : ProfileSet
  strategy : Strategy
  classification : Classification
  table : DescriptorTable
  schema : Option Schema
  /-- The digest of the descriptors that the pipeline was built from. -/
  digest : String
  events : List Event

namespace Pipeline

def roleTables (p : Pipeline) : RoleTables :=
  p.classification.tables p.strategy

def targetValue (group : String × List Descriptor) : Value :=
  .record [("target", .text group.1), ("descriptors", .list (group.2.map Descriptor.toValue))]

def handlerValue (e : Entry) : Value :=
  .record [
    ("name", .text e.handler.name),
    ("stream", .boolean e.handler.capabilities.stream),
    ("tree", .boolean e.handler.capabilities.tree),
    ("roles", .list (e.handler.capabilities.roles.map fun r => .text r.name)),
    ("targets", .list (e.targets.map .text))]

/-- What a summary says after the profile and the time. -/
def summaryFields (p : Pipeline) : List (String × Value) := [
  ("strategy", .text p.strategy.name),
  ("digest", .text p.digest),
  ("targets", .list (p.table.groups.map targetValue)),
  ("handlers", .list (p.classification.entries.map handlerValue)),
  ("unclassified", .integer p.classification.unclassified.length),
  ("events", .list (p.events.map Event.toValue))]

/-- The summary of a pipeline, with its identifier and the time of its build. -/
def summary (p : Pipeline) (id builtAt : String) : Value :=
  .record (
    [("id", .text id), ("profile", p.profiles.toValue), ("built_at", .text builtAt)] ++
      p.summaryFields)

/-- A target, and the label of each of its descriptors. -/
def targetLines (group : String × List Descriptor) : List String :=
  ("  " ++ group.1) :: group.2.map fun d => "    - " ++ d.label

/-- A role, and each of its targets with the names of the handlers. -/
def roleLines (table : Role × List (String × List Binding)) : List String :=
  ("  " ++ table.1.name ++ ":") :: table.2.map fun g =>
    "    " ++ g.1 ++ ": " ++ ", ".intercalate (g.2.map fun b => b.handler.name)

def eventLines (p : Pipeline) : List String :=
  if p.events.isEmpty then []
  else "" :: ("Events (" ++ toString p.events.length ++ "):") ::
    p.events.map fun e => "  - " ++ e.line

def planLines (p : Pipeline) (id : String) : List String :=
  [ "Pipeline:  " ++ id,
    "Profile:   " ++ p.profiles.label,
    "Strategy:  " ++ p.strategy.name,
    "Digest:    " ++ p.digest,
    "Schema:    " ++ (if p.schema.isSome then "yes" else "none"),
    "",
    "Targets (" ++ toString p.table.size ++ "):"] ++
  p.table.groups.flatMap targetLines ++
  [ "",
    "Handlers (" ++ toString p.classification.size ++ " classified, " ++
      toString p.classification.unclassified.length ++ " unclassified):"] ++
  p.classification.reportLines ++ p.roleTables.roles.flatMap roleLines ++ p.eventLines

/-- How the pipeline was resolved. -/
def plan (p : Pipeline) (id : String) : String :=
  Text.unlines (p.planLines id)

def describe (p : Pipeline) (id : String) : String :=
  let profiles := Text.described "ProfileSet" [
    ("base", Text.quoted p.profiles.base),
    ("sub_profiles", Text.bracketed (p.profiles.subProfiles.map Text.quoted))]
  Text.described "Pipeline" [
    ("id", id),
    ("profile", profiles),
    ("strategy", p.strategy.name.capitalize),
    ("handlers", toString p.classification.size),
    ("targets", toString p.table.size),
    ("schema", toString p.schema.isSome),
    ("digest", Text.quoted p.digest)]

end Pipeline

end DeliveryPipeline
