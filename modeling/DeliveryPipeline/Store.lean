import DeliveryPipeline.Descriptor.Record
import DeliveryPipeline.Error
import DeliveryPipeline.Toml.Document

/-!
# Resource stores

A store holds descriptors in declaration order, and gives those that apply to a profile set. It is
filled from programs or from resource files, which are TOML documents with a list of resources.
-/
namespace DeliveryPipeline

/-- The resources of a document, none if it lists none. -/
def resourcesOfValue? (v : Value) : Option (List Descriptor) := do
  match ← v.field? 0 ["resource"] with
  | none => return []
  | some (.list items) => items.mapM Descriptor.ofValue?
  | some _ => none

def resourcesOfToml (text : String) : Except Toml.Fault (List Descriptor) := do
  match resourcesOfValue? (← Toml.parse text) with
  | some ds => return ds
  | none => throw .wrongShape

def parseResources (text : String) : Except Error (List Descriptor) :=
  (resourcesOfToml text).mapError fun fault => .parse (.resources fault)

/-- Gives the text of a file, or what hinders reading it. -/
abbrev FileReader := String → Except String String

def loadResources (read : FileReader) (path : String) : Except Error (List Descriptor) :=
  match read path with
  | .error cause => .error (.io path cause)
  | .ok text => (resourcesOfToml text).mapError fun fault => .parse (.resourceFile path fault)

structure Store where
  stored : List Descriptor := []
deriving DecidableEq

namespace Store

instance : Inhabited Store := ⟨{}⟩

def add (s : Store) (d : Descriptor) : Store := ⟨s.stored ++ [d]⟩

def extend (s : Store) (ds : List Descriptor) : Store := ⟨s.stored ++ ds⟩

def replace (_ : Store) (ds : List Descriptor) : Store := ⟨ds⟩

/-- Store the resources of a text after the others. A text that is not read changes nothing. -/
def extendFromText (s : Store) (text : String) : Except Error Store :=
  (parseResources text).map s.extend

def size (s : Store) : Nat := s.stored.length

def isEmpty (s : Store) : Bool := s.stored.isEmpty

def descriptors (s : Store) (p : ProfileSet) : List Descriptor :=
  s.stored.filter fun d => d.profileExpression.appliesTo p

/-- The resources of several files. The first file that is not read is the error. -/
def ofFiles (read : FileReader) (paths : List String) : Except Error Store :=
  paths.foldlM (fun s path => (loadResources read path).map s.extend) {}

end Store

end DeliveryPipeline
