import DeliveryPipeline.Proofs.Extraction.Visits
import DeliveryPipeline.Proofs.Pipeline.Stages

/-!
# The calls of a build

A build tells its listeners of the created handlers, and of the pipeline if a strategy could be
chosen. What it would say to whom is fixed as soon as the handlers are created. The calls that it
makes are the beginning of this, up to the first call that fails, or up to the choice of the
strategy if there is none.
-/
namespace DeliveryPipeline

/-- What the listener answers that is called. -/
def Call.answer (c : Call) : Except Error Unit :=
  c.listener.respond c.event c.profiles

/-- The calls that tell all listeners of an event, in their order. -/
def callsOf (event : LifecycleEvent) (p : ProfileSet) (listeners : List Listener) : List Call :=
  listeners.map fun l => ⟨l, event, p⟩

theorem event_of_mem_callsOf {event : LifecycleEvent} {p : ProfileSet} {listeners : List Listener}
    {c : Call} (h : c ∈ callsOf event p listeners) : c.event = event := by
  obtain ⟨l, -, rfl⟩ := List.mem_map.mp h
  rfl

/-- All planned calls are made and none fails, or the calls end with the first that fails. -/
inductive Tells (planned : List Call) : Outcome Unit → Prop where
  | all (answered : ∀ c ∈ planned, c.answer = .ok ()) : Tells planned ⟨planned, .ok ()⟩
  | upTo (before after : List Call) {c : Call} {e : Error}
      (planned_eq : planned = before ++ c :: after)
      (answered : ∀ b ∈ before, b.answer = .ok ()) (refused : c.answer = .error e) :
      Tells planned ⟨before ++ [c], .error e⟩

theorem tells_notify (event : LifecycleEvent) (p : ProfileSet) (listeners : List Listener) :
    Tells (callsOf event p listeners) (notify event p listeners) := by
  induction listeners with
  | nil => exact .all (by simp [callsOf])
  | cons l rest ih =>
    rw [notify]
    cases hl : l.respond event p with
    | error e => exact .upTo [] (callsOf event p rest) rfl (by simp) hl
    | ok u =>
      simp only [callsOf, List.map_cons] at ih ⊢
      generalize notify event p rest = later at ih ⊢
      cases ih with
      | all answered => exact .all (List.forall_mem_cons.mpr ⟨hl, answered⟩)
      | upTo before after planned_eq answered refused =>
        exact .upTo (_ :: before) after (by rw [planned_eq]; rfl)
          (List.forall_mem_cons.mpr ⟨hl, answered⟩) refused

/-- The ways in which a build can go on once its handlers are created, when `first` and `second` are
the calls that it has planned. -/
inductive Course (first second : List Call) (chosen : Except Error Strategy) :
    Outcome Pipeline → Prop where
  /-- A call fails. -/
  | refused (before after : List Call) {c : Call} {e : Error}
      (planned_eq : first ++ second = before ++ c :: after)
      (answered : ∀ b ∈ before, b.answer = .ok ()) (refused : c.answer = .error e)
      (resolved : (∃ b ∈ before ++ [c], b.event = .pipelineCreated) → ∃ s, chosen = .ok s) :
      Course first second chosen ⟨before ++ [c], .error e⟩
  /-- There is no strategy. -/
  | unresolved {e : Error} (answered : ∀ c ∈ first, c.answer = .ok ())
      (chosen_eq : chosen = .error e) : Course first second chosen ⟨first, .error e⟩
  | completed {s : Strategy} {q : Pipeline} (answered : ∀ c ∈ first ++ second, c.answer = .ok ())
      (chosen_eq : chosen = .ok s) : Course first second chosen ⟨first ++ second, .ok q⟩

namespace Course

variable {first second : List Call} {chosen : Except Error Strategy} {o : Outcome Pipeline}

theorem calls_prefix (h : Course first second chosen o) : o.calls <+: first ++ second := by
  cases h with
  | refused before after planned_eq =>
    rw [planned_eq, List.append_cons before _ after]
    exact List.prefix_append _ after
  | unresolved => exact List.prefix_append first second
  | completed => exact List.prefix_refl _

/-- A build that succeeds has made all calls, and none has failed. -/
theorem of_ok (h : Course first second chosen o) {q : Pipeline} (hok : o.result = .ok q) :
    o.calls = first ++ second ∧ ∀ c ∈ o.calls, c.answer = .ok () := by
  cases h with
  | refused => cases hok
  | unresolved => cases hok
  | completed answered => exact ⟨rfl, answered⟩

/-- A call that fails is the last one, and its error is the error of the build. -/
theorem of_refusal (h : Course first second chosen o) {c : Call} {e : Error} (hc : c ∈ o.calls)
    (hrefused : c.answer = .error e) :
    o.result = .error e ∧ ∃ before, o.calls = before ++ [c] ∧ ∀ b ∈ before, b.answer = .ok () := by
  have hnot {calls : List Call} (answered : ∀ b ∈ calls, b.answer = .ok ()) : c ∉ calls := by
    intro hmem
    rw [answered c hmem] at hrefused
    cases hrefused
  cases h with
  | @refused before after last e' planned_eq answered hlast =>
    have hlast_eq : c = last := by
      rcases List.mem_append.mp hc with hbefore | hend
      · exact absurd hbefore (hnot answered)
      · exact List.mem_singleton.mp hend
    rw [← hlast_eq, hrefused] at hlast
    cases hlast
    exact ⟨rfl, before, by rw [hlast_eq], answered⟩
  | unresolved answered => exact absurd hc (hnot answered)
  | completed answered => exact absurd hc (hnot answered)

/-- Without a strategy, a build whose first calls have succeeded has made just these. -/
theorem of_unresolved (h : Course first second chosen o)
    (hsecond : ∀ c ∈ second, c.event = .pipelineCreated) {e : Error}
    (hanswered : ∀ c ∈ first, c.answer = .ok ()) (hchosen : chosen = .error e) :
    o.calls = first ∧ o.result = .error e := by
  cases h with
  | @refused before after c e' planned_eq answered hrefused resolved =>
    have hmem : c ∈ first ++ second := by simp [planned_eq]
    rcases List.mem_append.mp hmem with hfirst | hlater
    · rw [hanswered c hfirst] at hrefused
      cases hrefused
    · obtain ⟨s, hs⟩ := resolved ⟨c, by simp, hsecond c hlater⟩
      rw [hs] at hchosen
      cases hchosen
  | unresolved answered chosen_eq =>
    rw [hchosen] at chosen_eq
    cases chosen_eq
    exact ⟨rfl, rfl⟩
  | completed answered chosen_eq =>
    rw [hchosen] at chosen_eq
    cases chosen_eq

/-- Listeners are told of a pipeline only when its strategy has been chosen. -/
theorem exists_chosen (h : Course first second chosen o)
    (hfirst : ∀ c ∈ first, c.event = .handlersCreated) {c : Call} (hc : c ∈ o.calls)
    (hevent : c.event = .pipelineCreated) : ∃ s, chosen = .ok s := by
  cases h with
  | refused before after planned_eq answered refused resolved => exact resolved ⟨c, hc, hevent⟩
  | unresolved =>
    rw [hfirst c hc] at hevent
    cases hevent
  | completed answered chosen_eq => exact ⟨_, chosen_eq⟩

end Course

namespace Environment

variable {env : Environment} {p : ProfileSet} {ds : List Descriptor} {extra : Option Classification}
  {d : Draft}

/-- A pipeline is assembled exactly if a strategy can be chosen, and has this strategy. -/
theorem strategy_of_assemble (p : ProfileSet) (extra : Option Classification) (d : Draft) :
    (assemble p extra d).map Pipeline.strategy = d.chosenStrategy extra := by
  rw [assemble]
  cases d.chosenStrategy extra <;> rfl

theorem course_of_buildFrom (extra : Option Classification) (hdraft : env.draft p ds = .ok d) :
    Course (callsOf .handlersCreated p (env.listenersOf d))
      (callsOf .pipelineCreated p (env.listenersOf d)) (d.chosenStrategy extra)
      (env.buildFrom p ds extra) := by
  have hfirst := tells_notify .handlersCreated p (env.listenersOf d)
  have hsecond := tells_notify .pipelineCreated p (env.listenersOf d)
  have hchosen := strategy_of_assemble p extra d
  simp only [buildFrom, hdraft, complete]
  generalize notify .handlersCreated p (env.listenersOf d) = first at hfirst ⊢
  generalize notify .pipelineCreated p (env.listenersOf d) = second at hsecond ⊢
  cases hfirst with
  | upTo before after planned_eq answered refused =>
    refine .refused before (after ++ callsOf .pipelineCreated p (env.listenersOf d)) ?_ answered
      refused ?_
    · rw [planned_eq, List.append_assoc, List.cons_append]
    · -- no call of the first stage tells of the pipeline
      rintro ⟨b, hb, hevent⟩
      have hplanned : b ∈ callsOf .handlersCreated p (env.listenersOf d) := by
        rw [planned_eq, List.append_cons]
        exact List.mem_append_left after hb
      rw [event_of_mem_callsOf hplanned] at hevent
      cases hevent
  | all hfirst =>
    dsimp only
    cases hassemble : assemble p extra d with
    | error e =>
      rw [hassemble] at hchosen
      exact .unresolved hfirst hchosen.symm
    | ok q =>
      rw [hassemble] at hchosen
      cases hsecond with
      | upTo before after planned_eq answered refused =>
        dsimp only
        rw [← List.append_assoc]
        refine .refused _ after ?_ ?_ refused fun _ => ⟨_, hchosen.symm⟩
        · rw [planned_eq, List.append_assoc]
        · exact List.forall_mem_append.mpr ⟨hfirst, answered⟩
      | all hsecond =>
        exact .completed (List.forall_mem_append.mpr ⟨hfirst, hsecond⟩) hchosen.symm

/-- The listeners of a build are the registered ones and those that its factories have made. -/
theorem listenersOf_eq (hdraft : env.draft p ds = .ok d) :
    let w := env.workshop p d.schema
    ∃ table, DescriptorTable.build p d.schema ds = .ok table ∧
      env.listenersOf d = env.listeners ++
        (w.visits table).filterMap fun v => (w.madeAt v).bind Creation.listener := by
  obtain ⟨table, -, htable, hextract⟩ := draft_eq_ok hdraft
  refine ⟨table, htable, ?_⟩
  rw [listenersOf, Workshop.created_of_extract hextract, List.filterMap_filterMap]

/-- Build the pipeline of a profile set from what a store answers, which may be an error. -/
def buildOn (env : Environment) (p : ProfileSet) (stored : Except Error (List Descriptor))
    (extra : Option Classification) : Outcome Pipeline :=
  match stored with
  | .error e => ⟨[], .error e⟩
  | .ok ds => env.buildFrom p ds extra

theorem build_eq_buildOn (env : Environment) (p : ProfileSet) (extra : Option Classification) :
    env.build p extra = env.buildOn p (.ok (env.store.descriptors p)) extra := rfl

theorem buildOn_of_failed {stored : Except Error (List Descriptor)} {e : Error}
    (h : stored >>= env.draft p = .error e) : env.buildOn p stored extra = ⟨[], .error e⟩ := by
  cases stored with
  | error e' =>
    cases h
    rfl
  | ok ds =>
    have hdraft : env.draft p ds = .error e := h
    simp only [buildOn, buildFrom, hdraft]

/-- A build that fails before its handlers are created makes no call. After that the calls are
planned: those of the created handlers, then those of the pipeline, each to the registered listeners
and the listeners that factories have made. The calls made are the beginning of these, all of them
if the build succeeds. The first call that fails is the last one and fails the build. Without a
strategy the calls of the created handlers are made and no others. -/
theorem calls_of_buildOn (env : Environment) (p : ProfileSet)
    (stored : Except Error (List Descriptor)) (extra : Option Classification) :
    let o := env.buildOn p stored extra
    (∀ e, stored >>= env.draft p = .error e → o.calls = [] ∧ o.result = .error e) ∧
    ∀ ds d, stored = .ok ds → env.draft p ds = .ok d →
      ∃ table, DescriptorTable.build p d.schema ds = .ok table ∧
        let w := env.workshop p d.schema
        let listeners := env.listeners ++
          (w.visits table).filterMap fun v => (w.madeAt v).bind Creation.listener
        let first := callsOf .handlersCreated p listeners
        let second := callsOf .pipelineCreated p listeners
        o.calls <+: first ++ second ∧
        (∀ q, o.result = .ok q → o.calls = first ++ second ∧ ∀ c ∈ o.calls, c.answer = .ok ()) ∧
        (∀ c ∈ o.calls, ∀ e, c.answer = .error e → o.result = .error e ∧
          ∃ before, o.calls = before ++ [c] ∧ ∀ b ∈ before, b.answer = .ok ()) ∧
        (∀ e, (∀ c ∈ first, c.answer = .ok ()) → d.chosenStrategy extra = .error e →
          o.calls = first ∧ o.result = .error e) ∧
        (∀ c ∈ o.calls, c.event = .pipelineCreated → ∃ s, d.chosenStrategy extra = .ok s) := by
  intro o
  refine ⟨?_, ?_⟩
  · intro e hfailed
    have ho : o = ⟨[], .error e⟩ := buildOn_of_failed hfailed
    rw [ho]
    exact ⟨rfl, rfl⟩
  · rintro ds d rfl hdraft
    obtain ⟨table, htable, hlisteners⟩ := listenersOf_eq hdraft
    refine ⟨table, htable, ?_⟩
    intro w listeners first second
    have hcourse : Course first second (d.chosenStrategy extra) o := by
      have h := course_of_buildFrom extra hdraft
      rwa [hlisteners] at h
    refine ⟨hcourse.calls_prefix, fun q => hcourse.of_ok, fun c hc e => hcourse.of_refusal hc,
      ?_, ?_⟩
    · exact fun e => hcourse.of_unresolved fun c => event_of_mem_callsOf
    · exact fun c => hcourse.exists_chosen fun c => event_of_mem_callsOf

/-- A listener that does not accept the finished pipeline. -/
def refusingListener : Listener where
  name := "refusing"
  respond event _ :=
    match event with
    | .handlersCreated => .ok ()
    | .pipelineCreated => .error (.listener "refused")

def treeCapabilities : Capabilities :=
  (Capabilities.empty.addStrategy .tree).addRole .serialize

/-- Makes handlers that refuse the pipeline. Each of them registers a further handler. -/
def refusingFactory : Factory where
  name := "refusing"
  create fresh d := .ok {
    handler := ⟨fresh, "refusing", { treeCapabilities with selfRegistering := true }⟩
    register := fun c => c.add ⟨.registered c.size 0, "registered", treeCapabilities⟩ d ["p"]
    listener := some refusingListener }

/-- An environment with a listener, and a factory of handlers that refuse the pipeline. -/
def refusingEnvironment : Environment where
  listeners := [{ name := "accepting", respond := fun _ _ => .ok () }]
  factories := FactoryRegistry.builtin.register "refusing" refusingFactory

def refusedDescriptors : List Descriptor :=
  [{ selector := "p", declaredType := some "refusing" },
    { selector := "b", declaredType := some "refusing" }]

/-- A handler to hand in. -/
def handedIn : Classification :=
  Classification.add {} ⟨.given 0, "handed in", treeCapabilities⟩ { selector := "p" } ["p"]

/-- Only the created handlers are asked beside the registered listener, although the pipeline has
other handlers too. The last one of them is not told of the pipeline, since the first one refuses
it. -/
theorem calls_of_refused_pipeline :
    let o := refusingEnvironment.buildOn ⟨"html", []⟩ (.ok refusedDescriptors) (some handedIn)
    ∃ d, refusingEnvironment.draft ⟨"html", []⟩ refusedDescriptors = .ok d ∧
      (d.merged (some handedIn)).entries.map (·.handler.name) =
        ["refusing", "registered", "refusing", "registered", "handed in"] ∧
      o.calls.map (fun c => (c.listener.name, c.event)) = [
        ("accepting", .handlersCreated), ("refusing", .handlersCreated),
        ("refusing", .handlersCreated), ("accepting", .pipelineCreated),
        ("refusing", .pipelineCreated)] ∧
      o.result = .error (.listener "refused") := by
  intro o
  have hdraft : (refusingEnvironment.draft ⟨"html", []⟩ refusedDescriptors).toOption.map
      (fun d => (d.merged (some handedIn)).entries.map (·.handler.name)) =
        some ["refusing", "registered", "refusing", "registered", "handed in"] := by
    decide +kernel
  have hnames : o.calls.map (fun c => (c.listener.name, c.event)) = [
      ("accepting", .handlersCreated), ("refusing", .handlersCreated),
      ("refusing", .handlersCreated), ("accepting", .pipelineCreated),
      ("refusing", .pipelineCreated)] := by decide +kernel
  have hrefused : ∃ c ∈ o.calls,
      (match c.answer with | .ok _ => none | .error e => some e) = some (.listener "refused") := by
    decide +kernel
  obtain ⟨d, hdraft, hmerged⟩ := Error.map_toOption_eq_some_iff.1 hdraft
  refine ⟨d, hdraft, hmerged, hnames, ?_⟩
  obtain ⟨c, hc, hrefused⟩ := hrefused
  split at hrefused
  next => cases hrefused
  next e hanswer =>
    cases hrefused
    obtain ⟨table, -, hcalls⟩ := (refusingEnvironment.calls_of_buildOn ⟨"html", []⟩
      (.ok refusedDescriptors) (some handedIn)).2 refusedDescriptors d rfl hdraft
    exact (hcalls.2.2.1 c hc _ hanswer).1

end Environment

end DeliveryPipeline
