import DeliveryPipeline.Descriptor
import DeliveryPipeline.Value

/-!
# Descriptors and profile sets as data values

The written form of a descriptor is a record that leaves out absent fields, empty parameters and the
empty profile. Reading fills what is left out, and takes the type under either of its two names.
-/
namespace DeliveryPipeline

def Parameters.ofValue? : Value → Option Parameters
  | .record fields => do
    let bindings ← fields.mapM fun f => f.2.text?.map fun s => (f.1, s)
    return Dictionary.ofList bindings
  | _ => none

def Parameters.toValue (p : Parameters) : Value :=
  .record (p.entries.map fun b => (b.1, .text b.2))

namespace Descriptor

def ofValue? (v : Value) : Option Descriptor := do
  let selector ← v.field? 0 ["selector"]
  let declaredType ← v.field? 1 ["type", "resource_type"]
  let resource ← v.field? 2 ["resource"]
  let parameters ← v.field? 3 ["parameters"]
  let profile ← v.field? 4 ["profile"]
  return {
    selector := ← Value.withDefault Value.text? "" selector
    declaredType := ← Value.optionalText? declaredType
    resource := ← Value.optionalText? resource
    parameters := ← Value.withDefault Parameters.ofValue? Dictionary.empty parameters
    profile := ← Value.withDefault Value.text? "" profile }

def toValue (d : Descriptor) : Value :=
  .record (
    [("selector", .text d.selector)] ++
    (d.declaredType.toList.map fun t => ("type", .text t)) ++
    (d.resource.toList.map fun r => ("resource", .text r)) ++
    (if d.parameters.isEmpty then [] else [("parameters", Parameters.toValue d.parameters)]) ++
    (if d.profile = "" then [] else [("profile", .text d.profile)]))

end Descriptor

namespace ProfileSet

/-- Read a profile set. The base profile is required. -/
def ofValue? (v : Value) : Option ProfileSet := do
  let base ← v.field? 0 ["base"]
  let subProfiles ← v.field? 1 ["sub_profiles"]
  return {
    base := ← (← base).text?
    subProfiles := ← Value.withDefault Value.texts? [] subProfiles }

/-- The written form of a profile set, without the sub-profiles when there are none. -/
def toValue (p : ProfileSet) : Value :=
  .record (
    [("base", .text p.base)] ++
    (if p.subProfiles.isEmpty then []
      else [("sub_profiles", .list (p.subProfiles.map .text))]))

end ProfileSet

end DeliveryPipeline
