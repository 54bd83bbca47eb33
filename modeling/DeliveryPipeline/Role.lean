import DeliveryPipeline.Text.Pieces

/-!
# Roles

A role is a phase of processing that a handler takes part in. Streaming has no assembly phase of its
own, so there the assembly roles become processing roles.
-/
namespace DeliveryPipeline

inductive Role where
  | assemblyPre
  | assemblyPost
  | processingPre
  | processingPost
  | serialize
  | cleanup
deriving DecidableEq, Repr

namespace Role

def all : List Role :=
  [assemblyPre, assemblyPost, processingPre, processingPost, serialize, cleanup]

def name : Role → String
  | assemblyPre => "assembly-pre"
  | assemblyPost => "assembly-post"
  | processingPre => "processing-pre"
  | processingPost => "processing-post"
  | serialize => "serialize"
  | cleanup => "cleanup"

/-- The role that a text names, in any ASCII case, blanks around it aside. -/
def parse? (raw : String) : Option Role :=
  let text := Text.trim raw
  all.find? fun r => Text.sameIgnoringCase r.name text

def inStreamMode : Role → Role
  | assemblyPre => processingPre
  | assemblyPost => processingPost
  | role => role

end Role

end DeliveryPipeline
