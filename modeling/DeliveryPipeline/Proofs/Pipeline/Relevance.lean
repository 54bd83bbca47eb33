import DeliveryPipeline.Proofs.Extraction.Comparison
import DeliveryPipeline.Proofs.Pipeline.Completion

/-!
# What a build depends on

Of the stored descriptors a build sees those that apply to its profile set. Of the profile set it
asks for the base profile and for the names that are in the set, never for their order or number. So
stores that differ in descriptors that do not apply, and profile sets with the same names, give the
same builds, as long as no listener tells the profile sets apart.
-/
namespace DeliveryPipeline

/-- The same base profile, and the same sub-profiles apart from it, in any order and number. -/
structure ProfileSet.SameNames (p p' : ProfileSet) : Prop where
  base_eq : p.base = p'.base
  mem_iff : ∀ name, name ≠ p.base → (name ∈ p.subProfiles ↔ name ∈ p'.subProfiles)

/-- The second list comes from the first by putting descriptors in and taking them out that do not
apply. -/
inductive SameApplicable (p : ProfileSet) (ds : List Descriptor) : List Descriptor → Prop where
  | refl : SameApplicable p ds ds
  | putIn {before after : List Descriptor} (d : Descriptor)
      (unapplied : d.profileExpression.appliesTo p = false) :
    SameApplicable p ds (before ++ after) → SameApplicable p ds (before ++ d :: after)
  | takeOut {before after : List Descriptor} (d : Descriptor)
      (unapplied : d.profileExpression.appliesTo p = false) :
    SameApplicable p ds (before ++ d :: after) → SameApplicable p ds (before ++ after)

theorem SameApplicable.filter_eq {p : ProfileSet} {ds ds' : List Descriptor}
    (h : SameApplicable p ds ds') : (ds'.filter fun d => d.profileExpression.appliesTo p) =
      ds.filter fun d => d.profileExpression.appliesTo p := by
  induction h with
  | refl => rfl
  | putIn d unapplied _ ih =>
    rw [← ih, List.filter_append, List.filter_cons, unapplied, List.filter_append]
    rfl
  | takeOut d unapplied _ ih =>
    rw [← ih, List.filter_append, List.filter_append, List.filter_cons, unapplied]
    rfl

namespace ProfileSet.SameNames

variable {p p' : ProfileSet}

theorem contains_eq (h : p.SameNames p') : p.contains = p'.contains := by
  funext name
  unfold contains
  rw [← h.base_eq]
  by_cases hname : name = p.base
  · simp [hname]
  · have hmem : p.subProfiles.contains name = p'.subProfiles.contains name := by
      rw [Bool.eq_iff_iff, List.contains_iff_mem, List.contains_iff_mem]
      exact h.mem_iff name hname
    rw [hmem]

theorem appliesTo_eq (h : p.SameNames p') (e : ProfileExpression) :
    e.appliesTo p = e.appliesTo p' := by
  unfold ProfileExpression.appliesTo
  rw [h.contains_eq]

theorem specificity_eq (h : p.SameNames p') (e : ProfileExpression) :
    e.specificity p = e.specificity p' := by
  unfold ProfileExpression.specificity
  rw [h.contains_eq, h.base_eq]

theorem sortBySpecificity_eq (h : p.SameNames p') {α : Type} (descriptor : α → Descriptor) :
    sortBySpecificity p descriptor = sortBySpecificity p' descriptor := by
  have hrank : Specificity.of p = Specificity.of p' := by
    funext d
    rw [Specificity.of, Specificity.of, h.specificity_eq]
  funext items
  rw [sortBySpecificity, sortBySpecificity, hrank]

theorem targetsFor_eq (h : p.SameNames p') : targetsFor p = targetsFor p' := by
  funext schema d
  unfold targetsFor
  rw [h.base_eq]

theorem tableSort_eq (h : p.SameNames p') (t : DescriptorTable) : t.sort p = t.sort p' := by
  rw [DescriptorTable.sort, DescriptorTable.sort, h.sortBySpecificity_eq]

theorem tableBuild_eq (h : p.SameNames p') (schema : Option Schema) (ds : List Descriptor) :
    DescriptorTable.build p schema ds = DescriptorTable.build p' schema ds := by
  have hexpand : DescriptorTable.expand p schema = DescriptorTable.expand p' schema := by
    funext t d
    rw [DescriptorTable.expand, DescriptorTable.expand, h.targetsFor_eq]
  simp only [DescriptorTable.build, h.tableSort_eq, hexpand]

theorem classificationSort_eq (h : p.SameNames p') (c : Classification) : c.sort p = c.sort p' := by
  simp only [Classification.sort, RoleTables.sort, h.sortBySpecificity_eq]

end ProfileSet.SameNames

namespace Workshop

/-- A workshop asks its profile set for nothing but what is in the names. -/
theorem extract_sameNames (w : Workshop) {p' : ProfileSet} (h : w.profiles.SameNames p')
    (t : DescriptorTable) : w.extract t = { w with profiles := p' }.extract t := by
  have hitem : w.yieldedItem = Workshop.yieldedItem { w with profiles := p' } := by
    funext d
    rw [yieldedItem, yieldedItem, h.targetsFor_eq]
  have hvisit (n : Nat) (item : WorkItem) (x : Extraction) :
      w.visit n item x = { w with profiles := p' }.visit n item x := by
    simp only [visit, settle, expand, hitem]
  have hrun (x : Extraction) : (w.proceed 0 (initialItems t) x).map id =
      (Workshop.proceed { w with profiles := p' } 0 (initialItems t) x).map id := by
    refine map_proceed_eq ?_ 0 (initialItems t) rfl
    intro n item x x' hx
    obtain rfl : x = x' := hx
    rw [hvisit]
  rw [extract_eq_proceed, extract_eq_proceed]
  simpa only [Except.map_id, id_eq] using hrun { table := t }

end Workshop

/-- The outcome of a build as it is told for another profile set. -/
def Outcome.retold (p' : ProfileSet) (o : Outcome Pipeline) : Outcome Pipeline :=
  ⟨o.calls.map fun c => { c with profiles := p' },
    o.result.map fun q => { q with profiles := p' }⟩

/-- Listeners that answer alike for two profile sets are called alike. -/
theorem notify_retold {event : LifecycleEvent} {p p' : ProfileSet} {listeners : List Listener}
    (h : ∀ l ∈ listeners, l.respond event p' = l.respond event p) :
    notify event p' listeners =
      ⟨(notify event p listeners).calls.map fun c => { c with profiles := p' },
        (notify event p listeners).result⟩ := by
  induction listeners with
  | nil => rfl
  | cons l rest ih =>
    obtain ⟨hl, hrest⟩ := List.forall_mem_cons.1 h
    simp only [notify, hl, ih hrest]
    cases l.respond event p <;> rfl

namespace Environment

variable {p p' : ProfileSet}

theorem draft_sameNames (env : Environment) (h : p.SameNames p') (ds : List Descriptor) :
    env.draft p ds = env.draft p' ds := by
  have hschema : env.schemaFor p ds = env.schemaFor p' ds := by
    rw [schemaFor, schemaFor, h.base_eq]
  have hmap : (env.draft p ds).map id = (env.draft p' ds).map id := by
    refine map_draft_eq hschema (fun schema => h.tableBuild_eq schema ds) fun schema table => ?_
    rw [Workshop.extract_sameNames (env.workshop p schema) h]
    rfl
  simpa only [Except.map_id, id_eq] using hmap

theorem assemble_sameNames (h : p.SameNames p') (extra : Option Classification) (d : Draft) :
    assemble p' extra d = (assemble p extra d).map fun q => { q with profiles := p' } := by
  rw [assemble, assemble]
  cases d.chosenStrategy extra with
  | error e => rfl
  | ok s => simp only [Except.map, Draft.pipeline, h.classificationSort_eq]

theorem complete_retold (env : Environment) (h : p.SameNames p') (extra : Option Classification)
    {d : Draft} (hlisteners : ∀ l ∈ env.listenersOf d, ∀ event,
      l.respond event p' = l.respond event p) :
    env.complete p' extra d = (env.complete p extra d).retold p' := by
  have hnotify (event : LifecycleEvent) := notify_retold fun l hl => hlisteners l hl event
  simp only [complete, hnotify, assemble_sameNames h]
  cases (notify .handlersCreated p (env.listenersOf d)).result with
  | error e => rfl
  | ok _ =>
    cases assemble p extra d with
    | error e => rfl
    | ok q =>
      cases (notify .pipelineCreated p (env.listenersOf d)).result <;>
        simp [Outcome.retold, Except.map]

theorem buildFrom_retold (env : Environment) (h : p.SameNames p') {ds : List Descriptor}
    (hlisteners : ∀ d, env.draft p ds = .ok d → ∀ l ∈ env.listenersOf d, ∀ event,
      l.respond event p' = l.respond event p) (extra : Option Classification) :
    env.buildFrom p' ds extra = (env.buildFrom p ds extra).retold p' := by
  rw [buildFrom, buildFrom, ← env.draft_sameNames h]
  cases hd : env.draft p ds with
  | error e => rfl
  | ok d => exact env.complete_retold h extra (hlisteners d hd)

/-- A build does not depend on stored descriptors that do not apply, nor on the order and number of
the sub-profiles, nor on whether the base profile is among them. It makes the same calls and ends
the same way, but that it is told for another profile set, provided that no listener of it answers
otherwise for that set. -/
theorem build_retold {env : Environment} {ds ds' : List Descriptor}
    (hstored : SameApplicable p ds ds') (hnames : p.SameNames p')
    (hlisteners : ∀ d, env.draft p ((env.withStored ds).store.descriptors p) = .ok d →
      ∀ l ∈ env.listenersOf d, ∀ event, l.respond event p' = l.respond event p)
    (extra : Option Classification) :
    (env.withStored ds').build p' extra = ((env.withStored ds).build p extra).retold p' := by
  have hanswer : (env.withStored ds').store.descriptors p' =
      (env.withStored ds).store.descriptors p := by
    refine Eq.trans ?_ hstored.filter_eq
    simp only [Store.descriptors, hnames.appliesTo_eq]
    rfl
  unfold build
  rw [hanswer]
  exact env.buildFrom_retold hnames hlisteners extra

/-- Descriptors for a sub-profile, for the base profile and for all profiles. -/
def sharedDescriptors : List Descriptor :=
  [{ selector := "p", declaredType := some "handler", profile := "print" },
    { selector := "p", declaredType := some "handler", profile := "html,pdf" },
    { selector := "p", declaredType := some "handler" }]

/-- A descriptor for a profile that no build of these asks for. -/
def strayDescriptor : Descriptor :=
  { selector := "p", declaredType := some "handler", profile := "pdf" }

theorem build_of_sharedDescriptors :
    let env : Environment := {}
    let first : ProfileSet := ⟨"html", ["msie", "print"]⟩
    let second : ProfileSet := ⟨"html", ["print", "html", "msie", "print"]⟩
    ((env.withStored sharedDescriptors).build first none).result.toOption.isSome = true ∧
    (env.withStored (strayDescriptor :: sharedDescriptors)).build second none =
      ((env.withStored sharedDescriptors).build first none).retold second := by
  intro env first second
  have hbuilt :
      ((env.withStored sharedDescriptors).build first none).result.toOption.isSome = true := by
    decide +kernel
  have hnames : first.SameNames second := by
    refine ⟨rfl, fun name hname => ?_⟩
    have hhtml : name ≠ "html" := hname
    grind
  have hunheard : (env.draft first sharedDescriptors).toOption.all
      (fun d => (env.listenersOf d).isEmpty) = true := by
    decide +kernel
  have hstored :
      SameApplicable first sharedDescriptors ([] ++ strayDescriptor :: sharedDescriptors) :=
    .putIn strayDescriptor (by decide +kernel) .refl
  refine ⟨hbuilt, build_retold hstored hnames ?_ none⟩
  intro d hd
  have hshown : (env.withStored sharedDescriptors).store.descriptors first = sharedDescriptors := by
    decide +kernel
  rw [hshown] at hd
  have hnone : env.listenersOf d = [] := by simpa [hd, Except.toOption] using hunheard
  simp [hnone]

end Environment

end DeliveryPipeline
