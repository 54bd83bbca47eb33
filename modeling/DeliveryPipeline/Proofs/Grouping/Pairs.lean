import DeliveryPipeline.Proofs.Grouping.Keys

/-!
# Pairs and lists of a grouping

An addition puts one more pair into a grouping. It starts a list only with a value to put there, so
no list of a grouping that is made by additions is empty. Rearranging the lists changes neither.
-/
namespace DeliveryPipeline.Grouping

variable {κ α : Type} [DecidableEq κ] {g : Grouping κ α}

theorem perm_pairs_push (g : Grouping κ α) (key : κ) (value : α) :
    (g.push key value).pairs.Perm ((key, value) :: g.pairs) := by
  obtain ⟨groups⟩ := g
  simp only [push, pairs]
  induction groups with
  | nil => simp [pushTo]
  | cons group rest ih =>
    obtain ⟨k, values⟩ := group
    by_cases h : k = key
    · subst h
      simp only [pushTo, if_true, List.flatMap_cons, List.map_append, List.map_cons, List.map_nil]
      rw [List.append_assoc]
      exact List.perm_middle
    · simp only [pushTo, if_neg h, List.flatMap_cons]
      exact (ih.append_left _).trans List.perm_middle

omit [DecidableEq κ] in
theorem length_pairs_mapLists {f : List α → List α}
    (hf : ∀ values, (f values).length = values.length)
    (g : Grouping κ α) : (g.mapLists f).pairs.length = g.pairs.length := by
  simp [mapLists, pairs, List.length_flatMap, List.map_map, Function.comp_def, hf]

/-- Every key has a value. -/
def NoEmptyList (g : Grouping κ α) : Prop :=
  ∀ group ∈ g.groups, group.2 ≠ []

omit [DecidableEq κ] in
theorem noEmptyList_empty : (empty : Grouping κ α).NoEmptyList := by
  simp [NoEmptyList, empty]

theorem NoEmptyList.push (h : g.NoEmptyList) (key : κ) (value : α) :
    (g.push key value).NoEmptyList := by
  obtain ⟨groups⟩ := g
  simp only [NoEmptyList, Grouping.push] at h ⊢
  induction groups with
  | nil => simp [pushTo]
  | cons group rest ih =>
    obtain ⟨hgroup, hrest⟩ := List.forall_mem_cons.1 h
    by_cases hkey : group.1 = key
    · simp only [pushTo, if_pos hkey, List.forall_mem_cons]
      exact ⟨by simp, hrest⟩
    · simp only [pushTo, if_neg hkey, List.forall_mem_cons]
      exact ⟨hgroup, ih hrest⟩

omit [DecidableEq κ] in
theorem NoEmptyList.mapLists (h : g.NoEmptyList) {f : List α → List α}
    (hf : ∀ values, (f values).length = values.length) : (g.mapLists f).NoEmptyList := by
  intro group hgroup
  obtain ⟨original, horiginal, rfl⟩ := List.mem_map.1 hgroup
  have hne := h original horiginal
  rw [← List.length_pos_iff] at hne ⊢
  rwa [hf]

end DeliveryPipeline.Grouping
