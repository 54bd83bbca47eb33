import DeliveryPipeline.Proofs.FirstOccurrences
import DeliveryPipeline.Proofs.Grouping.Pairs

/-!
# Turning a grouping around

A grouping of pairs has their keys in the order in which these come up, and lists under a key the
values that are paired with it, in their order. So the transpose of a grouping has the values in the
order in which the grouping lists them, with the keys that list them, and as many pairs.
-/
namespace DeliveryPipeline.Grouping

variable {κ α : Type} [DecidableEq κ]

theorem get_foldl_push (ps : List (κ × α)) (g : Grouping κ α) (key : κ) :
    (ps.foldl (fun g p => g.push p.1 p.2) g).get key =
      g.get key ++ (ps.filter fun p => p.1 = key).map (·.2) := by
  induction ps generalizing g with
  | nil => simp
  | cons p ps ih =>
    rw [List.foldl_cons, ih, get_push]
    by_cases h : key = p.1
    · simp [h]
    · simp [h, Ne.symm h]

theorem get_ofPairs (ps : List (κ × α)) (key : κ) :
    (ofPairs ps).get key = (ps.filter fun p => p.1 = key).map (·.2) := by
  rw [ofPairs, get_foldl_push, get_empty, List.nil_append]

theorem keys_foldl_push (ps : List (κ × α)) (g : Grouping κ α) :
    (ps.foldl (fun g p => g.push p.1 p.2) g).keys = (ps.map (·.1)).foldl pushNew g.keys := by
  induction ps generalizing g with
  | nil => rfl
  | cons p ps ih => rw [List.foldl_cons, ih, keys_push, List.map_cons, List.foldl_cons, pushNew]

/-- The keys of pairs stand in the order in which they come up. -/
theorem keys_ofPairs (ps : List (κ × α)) : (ofPairs ps).keys = (ps.map (·.1)).eraseDups := by
  rw [ofPairs, keys_foldl_push, ← foldl_pushNew_nil]
  rfl

theorem perm_pairs_ofPairs (ps : List (κ × α)) : (ofPairs ps).pairs.Perm ps := by
  induction ps using List.reverseRecOn with
  | nil => rfl
  | append_singleton ps p ih =>
    rw [ofPairs, List.foldl_append, List.foldl_cons, List.foldl_nil]
    have hpushed := perm_pairs_push (ofPairs ps) p.1 p.2
    exact (hpushed.trans (ih.cons p)).trans (List.perm_append_singleton p ps).symm

theorem nodup_keys_foldl_push {g : Grouping κ α} (h : g.keys.Nodup) (ps : List (κ × α)) :
    (ps.foldl (fun g p => g.push p.1 p.2) g).keys.Nodup := by
  induction ps generalizing g with
  | nil => exact h
  | cons p ps ih => exact ih (nodup_keys_push h p.1 p.2)

theorem nodup_keys_ofPairs (ps : List (κ × α)) : (ofPairs ps).keys.Nodup :=
  nodup_keys_foldl_push nodup_keys_empty ps

/-- The keys under which a grouping lists a value. -/
def keysOf [DecidableEq α] (g : Grouping κ α) (value : α) : List κ :=
  (g.pairs.filter fun p => p.2 = value).map (·.1)

theorem mem_keysOf_iff [DecidableEq α] {g : Grouping κ α} (h : g.keys.Nodup) {key : κ} {value : α} :
    key ∈ g.keysOf value ↔ value ∈ g.get key := by
  simp [← mem_pairs_iff h, keysOf]

omit [DecidableEq κ] in
/-- Turned around, a grouping has under a value the keys that list it. -/
theorem keys_of_mem_transpose [DecidableEq α] {g : Grouping κ α} {value : α} {keys : List κ}
    (h : (value, keys) ∈ g.transpose.groups) : keys = g.keysOf value := by
  rw [← get_of_mem_groups (nodup_keys_ofPairs _) h, get_ofPairs, keysOf, List.filter_map,
    List.map_map]
  rfl

omit [DecidableEq κ] in
theorem map_snd_pairs (g : Grouping κ α) : g.pairs.map (·.2) = g.groups.flatMap (·.2) := by
  simp [pairs, List.map_flatMap, Function.comp_def]

section Transpose

variable [DecidableEq α] (g : Grouping κ α)

omit [DecidableEq κ] in
/-- Turned around, a grouping has the values in the order in which it lists them first. -/
theorem keys_transpose : g.transpose.keys = (g.groups.flatMap (·.2)).eraseDups := by
  rw [transpose, keys_ofPairs, List.map_map, ← map_snd_pairs]
  rfl

omit [DecidableEq κ] in
theorem length_pairs_transpose : g.transpose.pairs.length = g.pairs.length := by
  rw [transpose, (perm_pairs_ofPairs _).length_eq, List.length_map]

variable {g}

omit [DecidableEq κ] in
/-- Where no list repeats a value, the groups that have the value give its keys. -/
theorem keysOf_eq_map_filter (h : ∀ group ∈ g.groups, group.2.Nodup) (value : α) :
    g.keysOf value = (g.groups.filter fun group => value ∈ group.2).map (·.1) := by
  obtain ⟨groups⟩ := g
  simp only [keysOf, pairs] at h ⊢
  induction groups with
  | nil => rfl
  | cons group groups ih =>
    obtain ⟨hnodup, hrest⟩ := List.forall_mem_cons.1 h
    rw [List.flatMap_cons, List.filter_append, List.map_append, ih hrest, List.filter_map,
      List.map_map, List.filter_cons]
    have hhere : group.2.filter ((fun p : κ × α => decide (p.2 = value)) ∘ Prod.mk group.1) =
        List.replicate (group.2.count value) value := List.filter_eq value
    rw [hhere]
    by_cases hmem : value ∈ group.2
    · simp [hmem, List.count_eq_one_of_mem hnodup hmem]
    · simp [hmem, List.count_eq_zero.2 hmem]

/-- With each key once, these are the keys under which the value is found. -/
theorem keysOf_eq_filter (hkeys : g.keys.Nodup) (h : ∀ group ∈ g.groups, group.2.Nodup)
    (value : α) : g.keysOf value = g.keys.filter fun key => value ∈ g.get key := by
  rw [keysOf_eq_map_filter h, keys, List.filter_map]
  congr 1
  refine List.filter_congr fun group hgroup => ?_
  rw [Function.comp_apply, get_of_mem_groups hkeys hgroup]

end Transpose

end DeliveryPipeline.Grouping
