import DeliveryPipeline.Proofs.Extraction.SoftFailures
import DeliveryPipeline.Proofs.Pipeline.Completion

/-!
# Builds with soft failures

Events are written along a build and never read by it. So a build whose factories fail softly goes
like one whose factories fail softly in other ways: the same calls are made, and the error or the
pipeline is the same, but for the events about the descriptors that were failed on.
-/
namespace DeliveryPipeline

/-- A draft as it shows in some of its events. -/
def Draft.showing (seen : Event → Bool) (d : Draft) : Draft :=
  { d with extraction := d.extraction.showing seen }

/-- A pipeline as it shows in some of its events. -/
def Pipeline.showing (seen : Event → Bool) (q : Pipeline) : Pipeline :=
  { q with events := q.events.filter seen }

namespace Environment

/-- The environment with these factories. -/
def withFactories (env : Environment) (r : FactoryRegistry) : Environment :=
  { env with factories := r }

variable {env : Environment} {r : FactoryRegistry} {seen : Event → Bool}

theorem draft_alike (h : FactoryRegistry.Alike seen env.factories r) (p : ProfileSet)
    (ds : List Descriptor) : (env.draft p ds).map (Draft.showing seen) =
      ((env.withFactories r).draft p ds).map (Draft.showing seen) := by
  refine map_draft_eq rfl (fun _ => rfl) fun schema table => ?_
  have hextract : ((env.workshop p schema).extract table).map (Extraction.showing seen) =
      (((env.withFactories r).workshop p schema).extract table).map (Extraction.showing seen) :=
    Workshop.proceed_alike h 0 (Workshop.initialItems table) rfl
  rcases Error.map_eq_map_iff.1 hextract with ⟨e, hx, hx'⟩ | ⟨x, x', hx, hx', hsame⟩
  · rw [hx, hx']
  · simp only [hx, hx', Except.map, Draft.showing, hsame]

/-- What is assembled from a draft depends on no event, but that the events are handed on. -/
theorem assemble_showing (p : ProfileSet) (extra : Option Classification) (d : Draft)
    (seen : Event → Bool) : (assemble p extra d).map (Pipeline.showing seen) =
      (assemble p extra (d.showing seen)).map (Pipeline.showing seen) := by
  have hchosen : (d.showing seen).chosenStrategy extra = d.chosenStrategy extra := rfl
  rw [assemble, assemble, hchosen]
  cases d.chosenStrategy extra with
  | error e => rfl
  | ok s =>
    have hevents : (d.pipeline p extra s).events.filter seen =
        ((d.showing seen).pipeline p extra s).events.filter seen := by
      simp [Draft.pipeline, Draft.showing, Extraction.showing, Draft.merged]
    simp only [Except.map, Pipeline.showing, hevents]
    rfl

theorem complete_showing (env : Environment) (p : ProfileSet) (extra : Option Classification)
    (d : Draft) (seen : Event → Bool) : (env.complete p extra d).map (Pipeline.showing seen) =
      (env.complete p extra (d.showing seen)).map (Pipeline.showing seen) :=
  map_complete_eq rfl (assemble_showing p extra d seen)

theorem complete_alike (p : ProfileSet) (extra : Option Classification) {d d' : Draft}
    (h : d.showing seen = d'.showing seen) : (env.complete p extra d).map (Pipeline.showing seen) =
      (env.complete p extra d').map (Pipeline.showing seen) := by
  rw [complete_showing, h, ← complete_showing]

theorem buildFrom_alike (h : FactoryRegistry.Alike seen env.factories r) (p : ProfileSet)
    (ds : List Descriptor) (extra : Option Classification) :
    (env.buildFrom p ds extra).map (Pipeline.showing seen) =
      ((env.withFactories r).buildFrom p ds extra).map (Pipeline.showing seen) := by
  rw [buildFrom, buildFrom]
  rcases Error.map_eq_map_iff.1 (draft_alike h p ds) with ⟨e, hd, hd'⟩ | ⟨d, d', hd, hd', hsame⟩
  · rw [hd, hd']
  · rw [hd, hd']
    exact complete_alike p extra hsame

/-- If two registries differ in soft failures on some descriptors only, a build makes the same calls
with both. It fails with the same error, or creates the same handlers in the same order and gives
the same pipeline, but for events about these descriptors. Whatever events have been written before,
an extraction goes on the same way, and so does the rest of a build. -/
theorem same_build_with_softFailures (env : Environment) {altered : Descriptor → Bool}
    (h : FactoryRegistry.DiffersSoftly altered env.factories r) (p : ProfileSet)
    (ds : List Descriptor) (extra : Option Classification) :
    let seen := Event.isBesides altered
    (env.draft p ds).map (Draft.showing seen) =
      ((env.withFactories r).draft p ds).map (Draft.showing seen) ∧
    (env.buildFrom p ds extra).map (Pipeline.showing seen) =
      ((env.withFactories r).buildFrom p ds extra).map (Pipeline.showing seen) ∧
    (∀ (w : Workshop) n pending x events,
      (w.proceed n pending { x with events }).map (Extraction.showing fun _ => false) =
        (w.proceed n pending x).map (Extraction.showing fun _ => false)) ∧
    ∀ d events, (env.complete p extra { d with extraction := { d.extraction with events } }).map
        (Pipeline.showing fun _ => false) =
      (env.complete p extra d).map (Pipeline.showing fun _ => false) := by
  intro seen
  refine ⟨draft_alike h.alike p ds, buildFrom_alike h.alike p ds extra, ?_, ?_⟩
  · intro w n pending x events
    refine Workshop.proceed_alike (r := w.factories) (fun _ _ => rfl) n pending ?_
    simp [Extraction.showing]
  · intro d events
    apply complete_alike
    simp [Draft.showing, Extraction.showing]

/-- Makes handlers that yield a global parameter, in a descriptor of a type of its own. -/
def requestingFactory : Factory where
  name := "requesting"
  create := fun fresh _ => .ok {
    handler := ⟨fresh, "requesting", { Capabilities.empty with selfExpanding := true }⟩
    yields := [Descriptor.setParameter
      { selector := "global-parameters", declaredType := some "flaky" } strategyParameter "tree"] }

def requestingRegistry : FactoryRegistry :=
  FactoryRegistry.builtin.register "requesting" requestingFactory

def flakyFactory : Factory := ⟨"flaky", fun _ _ => .error (.failed "no connection")⟩

def requestingDescriptors : List Descriptor := [
  { selector := "p", declaredType := some "requesting" },
  Descriptor.setParameter { selector := "p", declaredType := some "handler" } "modes"
    "stream,tree"]

/-- The yielded parameter is listed as it is, be it that its factory fails or that there is none,
and decides the strategy. -/
theorem build_with_flakyFactory :
    let env : Environment := { factories := requestingRegistry.register "flaky" flakyFactory }
    let build (env : Environment) : Option Strategy :=
      (env.buildFrom ⟨"html", []⟩ requestingDescriptors none).result.toOption.map Pipeline.strategy
    build env = some .tree ∧ build (env.withFactories requestingRegistry) = some .tree := by
  intro env build
  have hfails (fresh : HandlerId) (d : Descriptor) : ∃ failure,
      flakyFactory.create fresh d = .error failure ∧ failure.IsSoft := ⟨_, rfl, trivial⟩
  have hdiffers := FactoryRegistry.differsSoftly_register (r := requestingRegistry) (t := "flaky")
    (by decide +kernel) (by decide +kernel) hfails
  obtain ⟨-, hsame, -⟩ := same_build_with_softFailures env hdiffers ⟨"html", []⟩
    requestingDescriptors none
  have hstrategy (seen : Event → Bool) (o : Outcome Pipeline) :
      (o.map (Pipeline.showing seen)).result.toOption.map Pipeline.strategy =
        o.result.toOption.map Pipeline.strategy := by
    obtain ⟨calls, result⟩ := o
    cases result <;> rfl
  have htree : build env = some .tree := by decide +kernel
  have hother : build env = build (env.withFactories requestingRegistry) := by
    simpa only [hstrategy] using congrArg (fun o => o.result.toOption.map Pipeline.strategy) hsame
  exact ⟨htree, hother ▸ htree⟩

end Environment

end DeliveryPipeline
