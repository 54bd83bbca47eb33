import DeliveryPipeline.Descriptor.Record

/-!
# Diagnostic events

An event tells of a decision or of a skipped resource. Events are kept in order and never change the
outcome of a build.
-/
namespace DeliveryPipeline

structure Event where
  descriptor : Option Descriptor := none
  message : String
  cause : Option String := none
deriving DecidableEq

namespace Event

def note (message : String) : Event := { message }

def about (d : Descriptor) (message : String) : Event := { descriptor := some d, message }

def failure (d : Descriptor) (message cause : String) : Event :=
  { descriptor := some d, message, cause := some cause }

/-- The written form of an event, without the parts that it has not. -/
def toValue (e : Event) : Value :=
  .record (
    (e.descriptor.toList.map fun d => ("descriptor", d.toValue)) ++
    [("message", .text e.message)] ++
    (e.cause.toList.map fun c => ("cause", .text c)))

/-- The first line of an event, with its descriptor and cause. -/
def line (e : Event) : String :=
  let first := Text.firstLine e.message
  match e.descriptor, e.cause with
  | some d, some cause => first ++ " [" ++ d.label ++ "]: " ++ cause
  | some d, none => first ++ " [" ++ d.label ++ "]"
  | none, _ => first

end Event

end DeliveryPipeline
