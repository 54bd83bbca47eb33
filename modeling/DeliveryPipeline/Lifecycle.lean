import DeliveryPipeline.Error

/-!
# Lifecycle notifications

Listeners are called in order at two stages of a build. The first that fails ends the calls, and its
error ends the build.
-/
namespace DeliveryPipeline

inductive LifecycleEvent where
  /-- Every descriptor has been turned into a handler or skipped. -/
  | handlersCreated
  /-- The pipeline is complete and about to be published. -/
  | pipelineCreated
deriving DecidableEq, Repr

def LifecycleEvent.name : LifecycleEvent → String
  | handlersCreated => "handlers-created"
  | pipelineCreated => "pipeline-created"

/-- One who is told of the stages of a build and may end it. -/
structure Listener where
  name : String
  respond : LifecycleEvent → ProfileSet → Except Error Unit

structure Call where
  listener : Listener
  event : LifecycleEvent
  profiles : ProfileSet

/-- The calls that were made, and what came of it. -/
structure Outcome (α : Type) where
  calls : List Call
  result : Except Error α

def notify (event : LifecycleEvent) (p : ProfileSet) : List Listener → Outcome Unit
  | [] => ⟨[], .ok ()⟩
  | l :: rest =>
    match l.respond event p with
    | .error e => ⟨[⟨l, event, p⟩], .error e⟩
    | .ok () =>
      let later := notify event p rest
      ⟨⟨l, event, p⟩ :: later.calls, later.result⟩

end DeliveryPipeline
