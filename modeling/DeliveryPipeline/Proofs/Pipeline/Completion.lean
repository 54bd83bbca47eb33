import DeliveryPipeline.Proofs.Pipeline.Calls

/-!
# Comparing two builds

A build makes a draft and then completes it: it tells the listeners of the draft, chooses a
strategy, assembles the pipeline and tells the listeners again. Two builds are compared by what one
chooses to see of their drafts and of their pipelines. Drafts look alike if their extractions do,
and drafts with the same listeners are completed alike if their pipelines look alike.
-/
namespace DeliveryPipeline

/-- The outcome with its value changed. The calls stay as they are. -/
def Outcome.map {α β : Type} (f : α → β) (o : Outcome α) : Outcome β :=
  ⟨o.calls, o.result.map f⟩

@[simp] theorem Outcome.map_id {α : Type} (o : Outcome α) : o.map id = o := by
  obtain ⟨calls, result⟩ := o
  cases result <;> rfl

namespace Environment

/-- Drafts with the same schemas and tables look alike if what is extracted looks alike in them. -/
theorem map_draft_eq {env env' : Environment} {p p' : ProfileSet} {ds ds' : List Descriptor}
    {γ : Type} {f f' : Draft → γ} (hschema : env.schemaFor p ds = env'.schemaFor p' ds')
    (htable : ∀ schema, DescriptorTable.build p schema ds = DescriptorTable.build p' schema ds')
    (hextract : ∀ schema table,
      ((env.workshop p schema).extract table).map
          (fun x => f ⟨descriptorDigest ds, schema, x⟩) =
        ((env'.workshop p' schema).extract table).map
          fun x => f' ⟨descriptorDigest ds', schema, x⟩) :
    (env.draft p ds).map f = (env'.draft p' ds').map f' := by
  simp only [draft, hschema, htable]
  cases env'.schemaFor p' ds' with
  | error e => simp only [bind, Except.bind, Except.map]
  | ok schema =>
    cases htable' : DescriptorTable.build p' schema ds' with
    | error e => simp only [bind, Except.bind, Except.map, htable']
    | ok table =>
      simp only [bind, Except.bind, htable']
      rcases Error.map_eq_map_iff.1 (hextract schema table) with
        ⟨e, hx, hx'⟩ | ⟨x, x', hx, hx', hsame⟩
      · simp only [hx, hx', Except.map]
      · simp only [hx, hx', Except.map, hsame]

/-- Drafts with the same listeners are completed alike if they are assembled alike. -/
theorem map_complete_eq {env env' : Environment} {p : ProfileSet} {extra : Option Classification}
    {γ : Type} {f f' : Pipeline → γ} {d d' : Draft}
    (hlisteners : env.listenersOf d = env'.listenersOf d')
    (hassemble : (assemble p extra d).map f = (assemble p extra d').map f') :
    (env.complete p extra d).map f = (env'.complete p extra d').map f' := by
  simp only [complete, hlisteners]
  cases (notify .handlersCreated p (env'.listenersOf d')).result with
  | error e => rfl
  | ok _ =>
    rcases Error.map_eq_map_iff.1 hassemble with ⟨e, hq, hq'⟩ | ⟨q, q', hq, hq', hsame⟩
    · rw [hq, hq']
      rfl
    · rw [hq, hq']
      cases (notify .pipelineCreated p (env'.listenersOf d')).result <;>
        simp [Outcome.map, Except.map, hsame]

end Environment

end DeliveryPipeline
