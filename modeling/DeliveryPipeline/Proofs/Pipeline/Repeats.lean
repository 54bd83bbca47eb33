import DeliveryPipeline.Proofs.DescriptorTable.Order
import DeliveryPipeline.Proofs.Pipeline.Completion

/-!
# Repeated descriptors

A build takes notice of a descriptor where it first stands among the given ones. A repeat carries no
other schema, names no new target and is listed already wherever it would be listed. So nothing but
the digest tells whether there are repeats.
-/
namespace DeliveryPipeline

namespace DescriptorTable

variable {p : ProfileSet} {schema : Option Schema}

theorem insertAll_of_listed {t : DescriptorTable} {targets : List String} {d : Descriptor}
    (h : ∀ target ∈ targets, d ∈ t.get target) : t.insertAll targets d = t := by
  unfold insertAll
  induction targets with
  | nil => rfl
  | cons target targets ih =>
    obtain ⟨hfirst, hrest⟩ := List.forall_mem_cons.1 h
    rw [List.foldl_cons, insert,
      if_pos (show t.contains target d = true from decide_eq_true hfirst)]
    exact ih hrest

/-- A repeat is listed under all its targets, so to list it again is idle. -/
theorem listAll_eraseDups (t : DescriptorTable) (ds : List Descriptor) :
    listAll p schema t ds.eraseDups = listAll p schema t ds := by
  apply foldl_eraseDups (T := fun t d => ∀ target ∈ targetsOf p schema d, d ∈ t.get target)
  · exact insertAll_of_listed
  · intro t d target htarget
    exact mem_get_insertAll.2 (.inr ⟨rfl, htarget⟩)
  · intro t d e hd target htarget
    exact mem_get_insertAll.2 (.inl (hd target htarget))

theorem asksForSorting_eraseDups (ds : List Descriptor) :
    asksForSorting ds.eraseDups = asksForSorting ds := by
  rw [asksForSorting, asksForSorting, filter_eraseDups, findSome?_eraseDups]

theorem build_eraseDups (p : ProfileSet) (schema : Option Schema) (ds : List Descriptor) :
    build p schema ds.eraseDups = build p schema ds := by
  simp only [build_eq, filter_eraseDups, findSome?_eraseDups, asksForSorting_eraseDups,
    listAll_eraseDups]

end DescriptorTable

namespace Environment

theorem schemaFor_eraseDups (env : Environment) (p : ProfileSet) (ds : List Descriptor) :
    env.schemaFor p ds.eraseDups = env.schemaFor p ds := by
  rw [schemaFor, schemaFor, findSome?_eraseDups]

theorem draft_eraseDups (env : Environment) (p : ProfileSet) (ds : List Descriptor) :
    env.draft p ds.eraseDups =
      (env.draft p ds).map fun d => { d with digest := descriptorDigest ds.eraseDups } := by
  have hmap : (env.draft p ds.eraseDups).map id =
      (env.draft p ds).map fun d => { d with digest := descriptorDigest ds.eraseDups } :=
    map_draft_eq (schemaFor_eraseDups env p ds)
      (fun schema => DescriptorTable.build_eraseDups p schema ds) fun schema table => rfl
  simpa only [Except.map_id, id_eq] using hmap

/-- The digest of a draft is handed on to the pipeline and decides nothing. -/
theorem complete_withDigest (env : Environment) (p : ProfileSet) (extra : Option Classification)
    (d : Draft) (digest : String) : env.complete p extra { d with digest } =
      (env.complete p extra d).map fun q => { q with digest } := by
  have hlisteners : env.listenersOf { d with digest } = env.listenersOf d := rfl
  have hchosen : Draft.chosenStrategy { d with digest } extra = d.chosenStrategy extra := rfl
  have hassemble : (assemble p extra { d with digest }).map id =
      (assemble p extra d).map fun q => { q with digest } := by
    rw [assemble, assemble, hchosen]
    cases d.chosenStrategy extra <;> rfl
  rw [← map_complete_eq hlisteners hassemble, Outcome.map_id]

theorem buildFrom_eraseDups (env : Environment) (p : ProfileSet) (ds : List Descriptor)
    (extra : Option Classification) :
    env.buildFrom p ds.eraseDups extra =
      (env.buildFrom p ds extra).map fun q =>
        { q with digest := descriptorDigest ds.eraseDups } := by
  rw [buildFrom, buildFrom, draft_eraseDups]
  cases env.draft p ds with
  | error e => rfl
  | ok d => exact complete_withDigest env p extra d _

/-- A build from descriptors without their repeats makes the same calls and fails with the same
error, or gives the same pipeline but for the digest. So it is for the descriptors that a store
answers with, and for those that it holds. -/
theorem same_build_without_repeats (env : Environment) (p : ProfileSet) (ds : List Descriptor)
    (extra : Option Classification) :
    (env.buildFrom p ds.eraseDups extra =
      (env.buildFrom p ds extra).map fun q =>
        { q with digest := descriptorDigest ds.eraseDups }) ∧
    let stored := (env.withStored ds.eraseDups).store.descriptors p
    (env.withStored ds.eraseDups).build p extra =
      ((env.withStored ds).build p extra).map fun q =>
        { q with digest := descriptorDigest stored } := by
  refine ⟨buildFrom_eraseDups env p ds extra, ?_⟩
  intro stored
  have hstored : stored = ((env.withStored ds).store.descriptors p).eraseDups :=
    filter_eraseDups _ ds
  unfold build
  rw [show (env.withStored ds.eraseDups).store.descriptors p = stored from rfl, hstored]
  exact buildFrom_eraseDups env p ((env.withStored ds).store.descriptors p) extra

end Environment

end DeliveryPipeline
