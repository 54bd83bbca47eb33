import DeliveryPipeline.Resolution

/-!
# Support for the resolved strategy

A strategy is supported by all classified handlers exactly when as many support it as there are.
Resolution answers with such a strategy or with an error.
-/
namespace DeliveryPipeline.Classification

theorem allSupport_iff (c : Classification) (s : Strategy) :
    c.allSupport s = true ↔ ∀ e ∈ c.entries, e.handler.capabilities.supports s = true := by
  rw [allSupport, capableOf, size, beq_iff_eq]
  exact List.countP_eq_length

theorem eq_of_onlyStrategy {only s : Strategy} {requested : Option Strategy}
    (h : onlyStrategy only requested = .ok s) : s = only := by
  unfold onlyStrategy at h
  split at h
  next =>
    split at h
    · cases h; rfl
    · cases h
  next => cases h; rfl

/-- The resolved strategy is supported by every classified handler. -/
theorem supports_of_resolve {c : Classification} {requested : Option Strategy} {s : Strategy}
    (h : c.resolve requested = .ok s) :
    ∀ e ∈ c.entries, e.handler.capabilities.supports s = true := by
  rw [← allSupport_iff]
  unfold resolve at h
  split at h
  next hstream htree =>
    -- either strategy may have been requested here, and both are supported
    cases s
    · exact hstream
    · exact htree
  next _ htree => rwa [eq_of_onlyStrategy h]
  next hstream _ => rwa [eq_of_onlyStrategy h]
  next => cases h

end DeliveryPipeline.Classification
