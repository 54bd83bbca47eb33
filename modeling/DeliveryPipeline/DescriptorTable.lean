import DeliveryPipeline.Grouping
import DeliveryPipeline.Specificity

/-!
# Descriptor tables

A descriptor table lists descriptors under the targets that they apply to, each once under a target.
Turned around it gives the bindings: each descriptor with all its targets. The descriptors under the
reserved target give the global parameters.
-/
namespace DeliveryPipeline

abbrev DescriptorTable := Grouping String Descriptor

namespace DescriptorTable

def contains (t : DescriptorTable) (target : String) (d : Descriptor) : Bool :=
  decide (d ∈ t.get target)

/-- List a descriptor under a target unless it is listed there. -/
def insert (t : DescriptorTable) (target : String) (d : Descriptor) : DescriptorTable :=
  if t.contains target d then t else t.push target d

def insertAll (t : DescriptorTable) (targets : List String) (d : Descriptor) : DescriptorTable :=
  targets.foldl (fun t target => t.insert target d) t

/-- Each descriptor with its targets, in the order in which the table lists them. -/
def bindings (t : DescriptorTable) : List (Descriptor × List String) :=
  t.transpose.groups

/-- The first value of a parameter among the descriptors of the reserved target. -/
def globalParameter? (t : DescriptorTable) (name : String) : Option String :=
  (t.get globalTarget).findSome? fun d => d.parameter? name

/-- A parameter that is on when its value reads `true` in any ASCII case, blanks aside. -/
def globalFlag (t : DescriptorTable) (name : String) (byDefault : Bool) : Bool :=
  match t.globalParameter? name with
  | some value => Text.sameIgnoringCase (Text.trim value) "true"
  | none => byDefault

/-- Sort the list of each target by descending rank. -/
def sort (t : DescriptorTable) (p : ProfileSet) : DescriptorTable :=
  t.mapLists (sortBySpecificity p id)

end DescriptorTable

end DeliveryPipeline
