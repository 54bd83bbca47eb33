import DeliveryPipeline.DescriptorTable
import DeliveryPipeline.Error

/-!
# Building a descriptor table

Descriptors whose selector names a target are listed first, in declaration order. The others are
held back and then listed under each element that the schema puts into their category. If the global
parameters ask for it, the lists are sorted before and after this expansion.
-/
namespace DeliveryPipeline

def sortResourcesParameter : String := "sort.resources"

/-- The targets of one descriptor. A category selector needs a known category and a schema. -/
def targetsFor (p : ProfileSet) (schema : Option Schema) (d : Descriptor) :
    Except Error (List String) :=
  match d.parsedSelector with
  | .category name => do
    let c ← Category.parse name
    match schema with
    | some s => .ok (s.classify c)
    | none => .error (.configuration (.schemaNeeded d.selector p.base))
  | s => .ok s.target?.toList

namespace DescriptorTable

/-- List a descriptor under the target that its selector names, if it names one. -/
def insertLiteral (t : DescriptorTable) (d : Descriptor) : DescriptorTable :=
  match d.parsedSelector.target? with
  | some target => t.insert target d
  | none => t

/-- The table of the descriptors whose selectors name their targets. -/
def ofLiterals (ds : List Descriptor) : DescriptorTable :=
  ds.foldl insertLiteral Grouping.empty

def heldBack (ds : List Descriptor) : List Descriptor :=
  ds.filter fun d => d.parsedSelector.target?.isNone

def expand (p : ProfileSet) (schema : Option Schema) (t : DescriptorTable) (d : Descriptor) :
    Except Error DescriptorTable := do
  return t.insertAll (← targetsFor p schema d) d

def build (p : ProfileSet) (schema : Option Schema) (ds : List Descriptor) :
    Except Error DescriptorTable := do
  let literal := ofLiterals ds
  let sorts := literal.globalFlag sortResourcesParameter false
  let start := if sorts then literal.sort p else literal
  let expanded ← (heldBack ds).foldlM (expand p schema) start
  return if sorts then expanded.sort p else expanded

end DescriptorTable

end DeliveryPipeline
