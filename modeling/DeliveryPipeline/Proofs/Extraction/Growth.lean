import DeliveryPipeline.Proofs.Classification.Placement
import DeliveryPipeline.Proofs.Extraction.Visits
import DeliveryPipeline.Proofs.Factory.Declared

/-!
# Growth of the classification

A visit adds the handler that it makes to the classification. Whatever else happens to the
classification is up to self-registering handlers. When these only add handlers, extraction only
adds handlers.
-/
namespace DeliveryPipeline

/-- The self-registering handlers of a factory add to the classification and do nothing else to
it. -/
def Factory.OnlyAdds (f : Factory) : Prop :=
  ∀ fresh d made, f.create fresh d = .ok made →
    made.handler.capabilities.selfRegistering = true →
      ∀ c : Classification, c.Grows (made.register c)

/-- The handlers of a factory do not register others. -/
def Factory.RegistersNone (f : Factory) : Prop :=
  ∀ fresh d made, f.create fresh d = .ok made → made.handler.capabilities.selfRegistering = false

theorem Factory.RegistersNone.onlyAdds {f : Factory} (h : f.RegistersNone) : f.OnlyAdds := by
  intro fresh d made hmade hself
  rw [h fresh d made hmade] at hself
  cases hself

namespace FactoryRegistry

/-- A registered factory makes a handler from a descriptor. -/
def Makes (r : FactoryRegistry) (fresh : HandlerId) (d : Descriptor) (made : Creation) : Prop :=
  ∃ resourceType f, r.factoryFor? resourceType = some f ∧ f.create fresh d = .ok made

/-- All self-registering handlers of the registered factories only add to the classification. -/
def OnlyAdds (r : FactoryRegistry) : Prop :=
  ∀ resourceType f, r.factoryFor? resourceType = some f → f.OnlyAdds

/-- No handler that the registered factories make registers others. -/
def RegistersNone (r : FactoryRegistry) : Prop :=
  ∀ resourceType f, r.factoryFor? resourceType = some f → f.RegistersNone

theorem RegistersNone.onlyAdds {r : FactoryRegistry} (h : r.RegistersNone) : r.OnlyAdds :=
  fun t f hf => (h t f hf).onlyAdds

/-- What holds of all factories holds of them after a registration of one of which it holds. -/
theorem forall_register {P : Factory → Prop} {r : FactoryRegistry} {f : Factory}
    (hr : ∀ t g, r.factoryFor? t = some g → P g) (hf : P f) (resourceType t : String) (g : Factory)
    (hg : (r.register resourceType f).factoryFor? t = some g) : P g := by
  rw [factoryFor?, FactoryRegistry.register, Dictionary.get?_set] at hg
  split at hg
  next =>
    cases hg
    exact hf
  next => exact hr t g hg

theorem OnlyAdds.register {r : FactoryRegistry} {f : Factory} (hr : r.OnlyAdds) (hf : f.OnlyAdds)
    (resourceType : String) : (r.register resourceType f).OnlyAdds :=
  forall_register hr hf resourceType

theorem RegistersNone.register {r : FactoryRegistry} {f : Factory} (hr : r.RegistersNone)
    (hf : f.RegistersNone) (resourceType : String) : (r.register resourceType f).RegistersNone :=
  forall_register hr hf resourceType

end FactoryRegistry

theorem Declared.selfRegistering_of_capabilities {d : Descriptor} {c : Capabilities}
    (h : Declared.capabilities d = .ok c) : c.selfRegistering = false := by
  obtain ⟨ms, rs, -, -, rfl⟩ := Declared.capabilities_eq_ok_iff.1 h
  rfl

/-- Declared handlers do not register others. -/
theorem Declared.registersNone_factory : Declared.factory.RegistersNone := by
  intro fresh d made hmade
  simp only [Declared.factory, Declared.create] at hmade
  split at hmade
  next c hc =>
    cases hmade
    exact Declared.selfRegistering_of_capabilities hc
  next => cases hmade

theorem FactoryRegistry.registersNone_builtin : FactoryRegistry.builtin.RegistersNone := by
  apply RegistersNone.register _ Declared.registersNone_factory
  intro t f hf
  cases hf

theorem FactoryRegistry.onlyAdds_builtin : FactoryRegistry.builtin.OnlyAdds :=
  registersNone_builtin.onlyAdds

theorem Factory.create_of_attempt {f : Factory} {fresh : HandlerId} {d : Descriptor}
    {attempt : Attempt} {made : Creation} (h : f.attempt fresh d = .ok attempt)
    (hmade : attempt.made = some made) : f.create fresh d = .ok made := by
  unfold Factory.attempt at h
  split at h
  next m hm =>
    cases h
    cases hmade
    exact hm
  all_goals
    cases h
    try cases hmade

namespace FactoryRegistry

variable {r : FactoryRegistry} {fresh : HandlerId} {d : Descriptor} {attempt : Attempt}
  {made : Creation}

theorem makes_of_attemptAs {t : String} (h : r.attemptAs t fresh d = .ok attempt)
    (hmade : attempt.made = some made) : r.Makes fresh d made := by
  unfold attemptAs at h
  split at h
  next f hf => exact ⟨t, f, hf, Factory.create_of_attempt h hmade⟩
  next =>
    cases h
    cases hmade

theorem makes_of_attemptByType (h : r.attemptByType fresh d = .ok attempt)
    (hmade : attempt.made = some made) : r.Makes fresh d made := by
  unfold attemptByType at h
  split at h
  next =>
    split at h <;>
      · cases h
        cases hmade
  next t _ =>
    split at h
    next =>
      cases h
      cases hmade
    next => exact makes_of_attemptAs h hmade

/-- A handler is always made by a registered factory, from the descriptor that is visited. -/
theorem makes_of_attempt (h : r.attempt fresh d = .ok attempt)
    (hmade : attempt.made = some made) : r.Makes fresh d made := by
  unfold FactoryRegistry.attempt at h
  split at h
  next =>
    split at h
    next => cases h
    next f hf =>
      cases hfirst : f.attempt fresh d with
      | error e => simp [hfirst, bind, Except.bind] at h
      | ok first =>
        simp only [hfirst, bind, Except.bind] at h
        split at h
        next =>
          cases h
          exact ⟨nativeType, f, hf, Factory.create_of_attempt hfirst hmade⟩
        next =>
          cases hsecond : r.attemptByType fresh d with
          | error e => simp [hsecond] at h
          | ok second =>
            simp only [hsecond, pure, Except.pure] at h
            cases h
            exact makes_of_attemptByType hsecond hmade
  next => exact makes_of_attemptByType h hmade

end FactoryRegistry

namespace Workshop

variable {w : Workshop}

theorem makes_of_madeAt {v : Visit} {made : Creation} (h : w.madeAt v = some made) :
    w.factories.Makes (.created v.before.created.length) v.item.descriptor made := by
  unfold madeAt at h
  cases hattempt : w.attemptAt v with
  | error _ => simp [hattempt, Except.toOption] at h
  | ok attempt =>
    simp only [hattempt, Except.toOption, Option.bind_some] at h
    exact FactoryRegistry.makes_of_attempt hattempt h

/-- When self-registering handlers only add to the classification, so does the registration at a
visit. -/
theorem grows_registered (hadds : w.factories.OnlyAdds) {v : Visit} {made : Creation}
    (hmade : w.madeAt v = some made) :
    Classification.Grows (v.before.classification.add made.handler v.item.descriptor v.item.targets)
      (w.classifiedAt v) := by
  simp only [classifiedAt, hmade]
  split
  next hself =>
    obtain ⟨t, f, hf, hcreate⟩ := makes_of_madeAt hmade
    exact hadds t f hf _ _ made hcreate hself _
  next => exact .refl

theorem grows_of_visit (hadds : w.factories.OnlyAdds) {expansions : Nat} {item : WorkItem}
    {x x' : Extraction} {items : List WorkItem}
    (h : w.visit expansions item x = .ok (x', items)) :
    x.classification.Grows x'.classification := by
  rw [classification_of_visit h]
  cases hmade : w.madeAt ⟨item, x⟩ with
  | none =>
    rw [classifiedAt, hmade]
    exact .refl
  | some made => exact (Classification.grows_add ..).trans (grows_registered hadds hmade)

/-- When self-registering handlers only add to the classification, extraction only adds to it. -/
theorem grows_of_extract (hadds : w.factories.OnlyAdds) {t : DescriptorTable} {x : Extraction}
    (h : w.extract t = .ok x) : Classification.Grows {} x.classification :=
  proceed_induction (P := fun _ _ y => y.classification.Grows x.classification) h .refl
    fun hvisit ih => (grows_of_visit hadds hvisit).trans ih

end Workshop

end DeliveryPipeline
