import DeliveryPipeline.Pipeline.Build

/-!
# The pipeline cache and the context of builds

The cache publishes at most one pipeline under a key. A request for a published key gets that
pipeline and starts no build; any other request builds, and publishes on success only.
-/
namespace DeliveryPipeline

/-- Published pipelines by key, and the number of builds started. -/
structure PipelineCache where
  published : Dictionary Pipeline := Dictionary.empty
  builds : Nat := 0

namespace PipelineCache

instance : Inhabited PipelineCache := ⟨{}⟩

/-- The pipeline under a key. A build runs, and is published, only when there is none. -/
def getOrBuild (c : PipelineCache) (key : String) (build : Unit → Outcome Pipeline) :
    PipelineCache × Outcome Pipeline :=
  match c.published.get? key with
  | some pipeline => (c, ⟨[], .ok pipeline⟩)
  | none =>
    let outcome := build ()
    match outcome.result with
    | .ok pipeline => (⟨c.published.set key pipeline, c.builds + 1⟩, outcome)
    | .error _ => ({ c with builds := c.builds + 1 }, outcome)

variable {c : PipelineCache} {key : String}

theorem getOrBuild_of_published {q : Pipeline} (h : c.published.get? key = some q)
    (build : Unit → Outcome Pipeline) : c.getOrBuild key build = (c, ⟨[], .ok q⟩) := by
  rw [getOrBuild, h]

theorem getOrBuild_of_unpublished (h : c.published.get? key = none)
    (build : Unit → Outcome Pipeline) :
    c.getOrBuild key build =
      ({ published :=
          match (build ()).result with
          | .ok q => c.published.set key q
          | .error _ => c.published
         builds := c.builds + 1 }, build ()) := by
  rw [getOrBuild, h]
  cases hresult : (build ()).result <;> simp only [hresult]

end PipelineCache

/-- An environment with the cache of its finished builds. -/
structure Context where
  environment : Environment := {}
  cache : PipelineCache := {}

namespace Context

instance : Inhabited Context := ⟨{}⟩

/-- The pipeline of a profile set. The handlers handed in count only for a new build. -/
def getOrBuild (c : Context) (p : ProfileSet) (extra : Option Classification) :
    Context × Outcome Pipeline :=
  let (cache, outcome) :=
    c.cache.getOrBuild p.cacheKey fun _ => c.environment.build p extra
  ({ c with cache }, outcome)

def describe (c : Context) : String :=
  let env := c.environment
  Text.described "DeliveryContext" [
    ("factories", env.factories.describe),
    ("schemas", env.schemas.describe),
    ("listeners",
      Text.described "ListenerRegistry" [("listeners", toString env.listeners.length)]),
    ("config", Text.described "BuildConfig" [("max_expansions", toString env.maxExpansions)]),
    ("published", toString c.cache.published.size)]

end Context

end DeliveryPipeline
