import DeliveryPipeline.Pipeline.Build

/-!
# The stages of a build that succeeds

A build that gives a pipeline has gone through all its stages: the schema, the table, the
extraction, the request of a strategy and its resolution. Each stage has succeeded, and the pipeline
holds what they gave.
-/
namespace DeliveryPipeline.Environment

/-- The environment whose store holds these descriptors. -/
def withStored (env : Environment) (ds : List Descriptor) : Environment :=
  { env with store := ⟨ds⟩ }

variable {env : Environment} {p : ProfileSet} {ds : List Descriptor} {extra : Option Classification}
  {d : Draft} {q : Pipeline}

theorem draft_eq_ok (h : env.draft p ds = .ok d) :
    ∃ table, env.schemaFor p ds = .ok d.schema ∧
      DescriptorTable.build p d.schema ds = .ok table ∧
      (env.workshop p d.schema).extract table = .ok d.extraction := by
  simp only [draft, Error.bind_eq_ok_iff, Error.map_eq_ok_iff] at h
  obtain ⟨schema, hschema, table, htable, x, hextract, rfl⟩ := h
  exact ⟨table, hschema, htable, hextract⟩

theorem assemble_eq_ok (h : assemble p extra d = .ok q) :
    ∃ requested, d.extraction.table.requestedStrategy = .ok requested ∧
      (d.merged extra).resolve requested = .ok q.strategy ∧ q = d.pipeline p extra q.strategy := by
  obtain ⟨s, hchosen, rfl⟩ := Error.map_eq_ok_iff.1 h
  obtain ⟨requested, hrequested, hresolve⟩ := Error.bind_eq_ok_iff.1 hchosen
  exact ⟨requested, hrequested, hresolve, rfl⟩

theorem buildFrom_eq_ok (h : (env.buildFrom p ds extra).result = .ok q) :
    ∃ d, env.draft p ds = .ok d ∧ assemble p extra d = .ok q := by
  unfold buildFrom at h
  split at h
  next => cases h
  next d hd =>
    dsimp only [complete] at h
    split at h
    next => cases h
    next =>
      split at h
      next => cases h
      next pipeline hpipeline =>
        refine ⟨d, hd, ?_⟩
        rw [hpipeline]
        cases hresult : (notify .pipelineCreated p (env.listenersOf d)).result with
        | error e => simp [hresult, Except.map] at h
        | ok u => simpa [hresult, Except.map] using h

end DeliveryPipeline.Environment
