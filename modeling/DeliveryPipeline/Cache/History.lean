import DeliveryPipeline.Cache

/-!
# Histories of a context

A context is used by operations in any order. Some change what builds work with: the stored
descriptors, the schemas, the listeners, the factories. The others are requests for the pipeline of
a profile set, and each is answered by an outcome.
-/
namespace DeliveryPipeline

/-- A change of what builds work with. -/
inductive Change where
  | addDescriptor (d : Descriptor)
  | extendStore (ds : List Descriptor)
  | replaceStore (ds : List Descriptor)
  | registerSchema (base : String) (s : Schema)
  | registerListener (l : Listener)
  | clearListeners
  | registerFactory (resourceType : String) (f : Factory)

def Environment.change (env : Environment) : Change → Environment
  | .addDescriptor d => { env with store := env.store.add d }
  | .extendStore ds => { env with store := env.store.extend ds }
  | .replaceStore ds => { env with store := env.store.replace ds }
  | .registerSchema base s => { env with schemas := env.schemas.set base s }
  | .registerListener l => { env with listeners := env.listeners ++ [l] }
  | .clearListeners => { env with listeners := [] }
  | .registerFactory resourceType f =>
    { env with factories := env.factories.register resourceType f }

/-- One use of a context. -/
inductive Operation where
  | change (c : Change)
  | request (p : ProfileSet) (extra : Option Classification)

structure Answer where
  profiles : ProfileSet
  outcome : Outcome Pipeline

namespace Context

/-- Use a context once. A request gives an answer. -/
def perform (c : Context) : Operation → Context × List Answer
  | .change change => ({ c with environment := c.environment.change change }, [])
  | .request p extra =>
    let (c', outcome) := c.getOrBuild p extra
    (c', [⟨p, outcome⟩])

/-- Use a context again and again: where this leads, and all answers in order. -/
def run (c : Context) : List Operation → Context × List Answer
  | [] => (c, [])
  | op :: rest =>
    let (c', first) := c.perform op
    let (last, more) := c'.run rest
    (last, first ++ more)

end Context

/-- The environment that the changes of a history lead to, whatever was requested. -/
def Environment.after (env : Environment) (history : List Operation) : Environment :=
  history.foldl (fun env op =>
    match op with
    | .change change => env.change change
    | .request _ _ => env) env

end DeliveryPipeline
