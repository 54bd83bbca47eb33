import DeliveryPipeline.Proofs.Classification.Placement
import Mathlib.Data.List.Nodup

/-!
# How classifications are composed

Classifications are composed from the empty one by adding handlers, by merging and by sorting. All
that are composed like this are coherent: no handler is recorded twice, the classified ones are
those with a role, and the role tables list what the entries say, whatever the order of their lists.
-/
namespace DeliveryPipeline.Classification

/-- The classification comes from the empty one by additions, merges and sorts, where handlers are
added with lists of targets that have the property. -/
inductive Composed (P : List String → Prop) : Classification → Prop where
  | empty : Composed P {}
  | add {c : Classification} (h : Handler) (d : Descriptor) {targets : List String} :
    Composed P c → P targets → Composed P (c.add h d targets)
  | merge {c other : Classification} : Composed P c → Composed P other → Composed P (c.merge other)
  | sort {c : Classification} (p : ProfileSet) : Composed P c → Composed P (c.sort p)

/-- The identities of all recorded handlers. -/
def ids (c : Classification) : List HandlerId :=
  c.entries.map (·.handler.id) ++ c.unclassified.map (·.handler.id)

/-- The recorded handlers with their descriptors. -/
def bindings (c : Classification) : List Binding :=
  c.entries.map Entry.binding ++ c.unclassified

/-- What is recorded of the handler with an identity. -/
def bindingsOf (c : Classification) (id : HandlerId) : List Binding :=
  c.bindings.filter fun b => b.handler.id = id

/-- Entries, handlers without a role and role tables agree with each other. -/
structure Coherent (c : Classification) : Prop where
  nodup_ids : c.ids.Nodup
  roles_ne_nil : ∀ e ∈ c.entries, e.handler.capabilities.roles ≠ []
  roles_eq_nil : ∀ b ∈ c.unclassified, b.handler.capabilities.roles = []
  nodup_keys : ∀ s, (c.tables s).keys.Nodup
  perm_listed : ∀ s role target, ((c.tables s).handlers role target).Perm (c.listed s role target)

theorem contains_iff (c : Classification) (id : HandlerId) : c.contains id = true ↔ id ∈ c.ids := by
  rw [contains, Bool.or_eq_true, ids, List.mem_append, List.any_eq_true, List.any_eq_true,
    List.mem_map, List.mem_map]
  simp only [beq_iff_eq]

theorem coherent_empty : Coherent {} where
  nodup_ids := List.nodup_nil
  roles_ne_nil := by simp
  roles_eq_nil := by simp
  nodup_keys := placed_empty.nodup_keys
  perm_listed s role target := .of_eq (placed_empty.handlers_eq s role target)

/-- A handler that is not recorded is recorded by an addition, and nothing else is. -/
theorem ids_add_perm {c : Classification} {h : Handler} (hnew : h.id ∉ c.ids) (d : Descriptor)
    (targets : List String) : (c.add h d targets).ids.Perm (h.id :: c.ids) := by
  have hnot : ¬ c.contains h.id = true := by rwa [contains_iff]
  rw [add, if_neg hnot]
  split
  next =>
    simp only [ids, List.map_append, List.map_cons, List.map_nil, ← List.append_assoc]
    exact List.perm_append_singleton ..
  next =>
    simp only [ids, List.map_append, List.map_cons, List.map_nil]
    exact (List.perm_append_singleton _ _).append_right _

theorem nodup_ids_add {c : Classification} (hc : c.ids.Nodup) (h : Handler) (d : Descriptor)
    (targets : List String) : (c.add h d targets).ids.Nodup := by
  by_cases hknown : h.id ∈ c.ids
  · rwa [add_of_contains ((contains_iff c h.id).2 hknown)]
  · rw [(ids_add_perm hknown d targets).nodup_iff, List.nodup_cons]
    exact ⟨hknown, hc⟩

/-- Adding a handler keeps a classification coherent. -/
theorem Coherent.add {c : Classification} (hc : c.Coherent) (h : Handler) (d : Descriptor)
    (targets : List String) : (c.add h d targets).Coherent where
  nodup_ids := nodup_ids_add hc.nodup_ids h d targets
  nodup_keys := nodup_keys_add hc.nodup_keys h d targets
  roles_ne_nil := by
    unfold Classification.add
    split
    next => exact hc.roles_ne_nil
    next =>
      split
      next => exact hc.roles_ne_nil
      next hroles =>
        intro e he
        rcases List.mem_append.1 he with he | he
        · exact hc.roles_ne_nil e he
        · rw [List.mem_singleton.1 he]
          simpa using hroles
  roles_eq_nil := by
    unfold Classification.add
    split
    next => exact hc.roles_eq_nil
    next =>
      split
      next hroles =>
        intro b hb
        rcases List.mem_append.1 hb with hb | hb
        · exact hc.roles_eq_nil b hb
        · rw [List.mem_singleton.1 hb]
          simpa using hroles
      next => exact hc.roles_eq_nil
  perm_listed s role target := by
    obtain ⟨added, htables, hlisted⟩ := exists_added c h d targets s role target
    rw [htables, hlisted]
    exact (hc.perm_listed s role target).append_right added

theorem map_id_bindings (c : Classification) : c.bindings.map (·.handler.id) = c.ids := by
  rw [bindings, List.map_append, List.map_map]
  rfl

/-- A handler that is not recorded is recorded by an addition, with or without a role. -/
theorem mem_bindings_add_of_new {c : Classification} {h : Handler}
    (hnew : c.contains h.id = false) (d : Descriptor) (targets : List String) :
    ⟨h, d⟩ ∈ (c.add h d targets).bindings := by
  rw [add, if_neg (Bool.eq_false_iff.1 hnew), bindings]
  split <;> simp [Entry.binding]

theorem mem_bindings_add {c : Classification} {b : Binding} (hb : b ∈ c.bindings) (h : Handler)
    (d : Descriptor) (targets : List String) : b ∈ (c.add h d targets).bindings := by
  rw [bindings, List.mem_append] at hb
  unfold add
  split
  next => exact List.mem_append.2 hb
  next =>
    split <;> rw [bindings, List.mem_append]
    next => exact hb.imp_right (List.mem_append_left _)
    next =>
      rw [List.map_append]
      exact hb.imp_left (List.mem_append_left _)

/-- Of a handler that is recorded, only that is recorded. -/
theorem Coherent.bindingsOf_eq {c : Classification} (hc : c.Coherent) {b : Binding}
    (hb : b ∈ c.bindings) : c.bindingsOf b.handler.id = [b] := by
  have hnodup := hc.nodup_ids
  rw [← map_id_bindings] at hnodup
  rw [bindingsOf]
  generalize c.bindings = bs at hb hnodup ⊢
  induction bs with
  | nil => cases hb
  | cons first rest ih =>
    obtain ⟨hfirst, hrest⟩ := List.nodup_cons.1 hnodup
    have hother : ∀ x ∈ rest, x.handler.id ≠ first.handler.id := fun x hx hid =>
      hfirst (List.mem_map.2 ⟨x, hx, hid⟩)
    rcases List.mem_cons.1 hb with rfl | hb
    · have hnone : rest.filter (fun x => x.handler.id = b.handler.id) = [] := by
        simpa [List.filter_eq_nil_iff] using hother
      rw [List.filter_cons_of_pos (by simp), hnone]
    · rw [List.filter_cons_of_neg (by simpa using (hother b hb).symm)]
      exact ih hb hrest

theorem Grows.coherent {c c' : Classification} (h : c.Grows c') (hc : c.Coherent) : c'.Coherent :=
  h.keeps hc fun _ handler d targets hc => hc.add handler d targets

theorem Grows.mem_bindings {c c' : Classification} (h : c.Grows c') {b : Binding}
    (hb : b ∈ c.bindings) : b ∈ c'.bindings :=
  h.keeps (I := fun c => b ∈ c.bindings) hb fun _ handler d targets hb =>
    mem_bindings_add hb handler d targets

/-- However a coherent classification grows, what is recorded of a handler stays so. -/
theorem Grows.bindingsOf_eq {c c' : Classification} (h : c.Grows c') (hc : c.Coherent) {b : Binding}
    (hb : b ∈ c.bindings) : c'.bindingsOf b.handler.id = [b] :=
  (h.coherent hc).bindingsOf_eq (h.mem_bindings hb)

/-- Sorting touches the order of the lists alone. -/
theorem Coherent.sort {c : Classification} (hc : c.Coherent) (p : ProfileSet) :
    (c.sort p).Coherent where
  nodup_ids := hc.nodup_ids
  roles_ne_nil := hc.roles_ne_nil
  roles_eq_nil := hc.roles_eq_nil
  nodup_keys s := by
    rw [tables_sort, RoleTables.sort, Grouping.keys_mapLists]
    exact hc.nodup_keys s
  perm_listed s role target := by
    rw [tables_sort, RoleTables.handlers_sort]
    exact (perm_sortBySpecificity p Binding.descriptor _).trans (hc.perm_listed s role target)

/-- Entries with the same handler are one entry. -/
theorem Coherent.eq_of_handler {c : Classification} (hc : c.Coherent) {e e' : Entry}
    (he : e ∈ c.entries) (he' : e' ∈ c.entries) (h : e.handler = e'.handler) : e = e' :=
  List.inj_on_of_nodup_map (List.nodup_append.1 hc.nodup_ids).1 he he' (congrArg Handler.id h)

/-- The role tables of a strategy list an entry exactly if its handler supports the strategy and it
has a target. -/
theorem Coherent.exists_mem_handlers_iff {c : Classification} (hc : c.Coherent) {e : Entry}
    (he : e ∈ c.entries) (s : Strategy) :
    (∃ role target, e.binding ∈ (c.tables s).handlers role target) ↔
      e.handler.capabilities.supports s = true ∧ e.targets ≠ [] := by
  constructor
  · rintro ⟨role, target, hmem⟩
    rw [(hc.perm_listed s role target).mem_iff, mem_listed_iff] at hmem
    obtain ⟨e', he', hbinding, hplace⟩ := hmem
    obtain rfl := hc.eq_of_handler he' he (congrArg Binding.handler hbinding)
    have hsupports := Entry.supports_of_mem_places hplace
    exact ⟨hsupports, List.ne_nil_of_mem ((Entry.mem_places_iff hsupports role target).1 hplace).2⟩
  · rintro ⟨hsupports, htargets⟩
    obtain ⟨r, hr⟩ := List.exists_mem_of_ne_nil _ (hc.roles_ne_nil e he)
    obtain ⟨target, htarget⟩ := List.exists_mem_of_ne_nil _ htargets
    refine ⟨r.under s, target, ?_⟩
    rw [(hc.perm_listed s _ target).mem_iff, mem_listed_iff]
    exact ⟨e, he, rfl, (Entry.mem_places_iff hsupports _ target).2 ⟨⟨r, hr, rfl⟩, htarget⟩⟩

variable {P : List String → Prop} {c : Classification}

/-- What additions and sorts keep holds of whatever is composed, since a merge adds handlers. -/
theorem Composed.keeps {I : Classification → Prop} (hc : c.Composed P) (hempty : I {})
    (hadd : ∀ c h d targets, I c → I (c.add h d targets)) (hsort : ∀ c p, I c → I (c.sort p)) :
    I c := by
  induction hc with
  | empty => exact hempty
  | add h d _ _ ih => exact hadd _ h d _ ih
  | merge _ _ ih _ => exact (grows_merge _ _).keeps ih hadd
  | sort p _ ih => exact hsort _ p ih

/-- Whatever is composed is coherent. -/
theorem Composed.coherent (hc : c.Composed P) : c.Coherent :=
  hc.keeps coherent_empty (fun _ h d targets hc => hc.add h d targets) fun _ p hc => hc.sort p

/-- The entries have lists of targets that handlers were added with. -/
theorem Composed.targets (hc : c.Composed P) : ∀ e ∈ c.entries, P e.targets := by
  induction hc with
  | empty => simp
  | add h d _ htargets ih =>
    rename_i c targets hc
    rcases add_cases c h d targets with ⟨hentries, -⟩ | ⟨hentries, -⟩
    · rwa [hentries]
    · rw [hentries]
      intro e he
      rcases List.mem_append.1 he with he | he
      · exact ih e he
      · rw [List.mem_singleton.1 he]
        exact htargets
  | merge hc hother ih ihother =>
    rename_i c other
    have hmerged : (c.merge other).Coherent := (grows_merge c other).coherent hc.coherent
    obtain ⟨added, hsub, hentries⟩ := entries_merge c other
    intro e he
    have hroles := hmerged.roles_ne_nil e he
    rw [hentries] at he
    rcases List.mem_append.1 he with he | he
    · exact ih e he
    · -- the handlers without a role are added too, but never become entries
      rcases List.mem_append.1 (hsub.subset he) with he | he
      · exact ihother e he
      · obtain ⟨b, hb, rfl⟩ := List.mem_map.1 he
        exact absurd (hother.coherent.roles_eq_nil b hb) hroles
  | sort p _ ih => exact ih

end DeliveryPipeline.Classification
