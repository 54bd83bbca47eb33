import DeliveryPipeline.Grouping
import Mathlib.Data.List.Nodup

/-!
# Keys of a grouping

Every grouping that is made by adding values has each key once. Then the pairs of the grouping are
the values that are found under the keys, and nothing is listed where it cannot be found.
-/
namespace DeliveryPipeline.Grouping

variable {κ α : Type} [DecidableEq κ]

omit [DecidableEq κ] in
@[simp] theorem nodup_keys_empty : (empty : Grouping κ α).keys.Nodup :=
  List.nodup_nil

theorem nodup_keys_push {g : Grouping κ α} (h : g.keys.Nodup) (key : κ) (value : α) :
    (g.push key value).keys.Nodup := by
  rw [keys_push]
  split
  next => exact h
  next hnew =>
    rw [List.nodup_append_comm, List.singleton_append, List.nodup_cons]
    exact ⟨hnew, h⟩

/-- Rearranging the lists rearranges the list under each key. -/
theorem get_mapLists (f : List α → List α) (hf : f [] = []) (g : Grouping κ α) (key : κ) :
    (g.mapLists f).get key = f (g.get key) := by
  obtain ⟨groups⟩ := g
  simp only [mapLists, get]
  induction groups with
  | nil => simp [hf]
  | cons group rest ih =>
    obtain ⟨k, values⟩ := group
    by_cases h : key = k
    · simp [h]
    · simpa [List.lookup_cons, beq_eq_false_iff_ne.2 h] using ih

/-- Where the front of a list may be rearranged beforehand, so may all lists before an addition. -/
theorem mapLists_push {f : List α → List α}
    (hf : ∀ front back, f (f front ++ back) = f (front ++ back)) (g : Grouping κ α) (key : κ)
    (value : α) :
    ((g.mapLists f).push key value).mapLists f = (g.push key value).mapLists f := by
  have hidle (values : List α) : f (f values) = f values := by simpa using hf values []
  obtain ⟨groups⟩ := g
  simp only [mapLists, push, Grouping.mk.injEq]
  induction groups with
  | nil => rfl
  | cons group rest ih =>
    by_cases h : group.1 = key
    · simp [pushTo, h, hf, hidle]
    · simp [pushTo, h, hidle, ih]

omit [DecidableEq κ] in
theorem mapLists_mapLists {f : List α → List α} (hf : ∀ values, f (f values) = f values)
    (g : Grouping κ α) : (g.mapLists f).mapLists f = g.mapLists f := by
  simp [mapLists, hf]

theorem mem_get_iff (g : Grouping κ α) (key : κ) (value : α) :
    value ∈ g.get key ↔ ∃ values, g.groups.lookup key = some values ∧ value ∈ values := by
  unfold get
  cases g.groups.lookup key <;> simp

/-- A key under which something is found is one of the keys. -/
theorem mem_keys_of_mem_get {g : Grouping κ α} {key : κ} {value : α} (h : value ∈ g.get key) :
    key ∈ g.keys := by
  by_contra hnot
  have hnone : g.groups.lookup key = none := by
    rw [List.lookup_eq_none_iff]
    intro group hgroup
    rw [bne_iff_ne]
    rintro rfl
    exact hnot (List.mem_map_of_mem hgroup)
  simp [get, hnone] at h

/-- Where something is found, it is what a group lists. -/
theorem mem_groups_of_get_ne_nil {g : Grouping κ α} {key : κ} (h : g.get key ≠ []) :
    (key, g.get key) ∈ g.groups := by
  rw [get] at h ⊢
  cases hlookup : g.groups.lookup key with
  | none => simp [hlookup] at h
  | some values =>
    obtain ⟨before, after, hgroups, -⟩ := List.lookup_eq_some_iff.1 hlookup
    rw [hgroups]
    exact List.mem_append_right before List.mem_cons_self

theorem lookup_eq_some_iff {groups : List (κ × List α)} (h : (groups.map (·.1)).Nodup) (key : κ)
    (values : List α) : groups.lookup key = some values ↔ (key, values) ∈ groups := by
  induction groups with
  | nil => simp
  | cons group rest ih =>
    obtain ⟨k, vs⟩ := group
    rw [List.map_cons, List.nodup_cons] at h
    by_cases hk : key = k
    · subst hk
      have hrest : (key, values) ∉ rest := fun hm => h.1 (List.mem_map.2 ⟨_, hm, rfl⟩)
      simp [hrest, eq_comm]
    · simp [List.lookup_cons, beq_eq_false_iff_ne.2 hk, hk, ih h.2]

theorem get_of_mem_groups {g : Grouping κ α} (h : g.keys.Nodup) {key : κ} {values : List α}
    (hgroup : (key, values) ∈ g.groups) : g.get key = values := by
  rw [get, (lookup_eq_some_iff h key values).2 hgroup, Option.getD_some]

/-- A grouping with each key once pairs a key with the values that are found under it. -/
theorem mem_pairs_iff {g : Grouping κ α} (h : g.keys.Nodup) (key : κ) (value : α) :
    (key, value) ∈ g.pairs ↔ value ∈ g.get key := by
  have hlookup : ∀ values, g.groups.lookup key = some values ↔ (key, values) ∈ g.groups :=
    lookup_eq_some_iff h key
  rw [mem_get_iff]
  simp only [hlookup, pairs, List.mem_flatMap, List.mem_map, Prod.mk.injEq, Prod.exists]
  constructor
  · rintro ⟨k, values, hgroup, v, hv, rfl, rfl⟩
    exact ⟨values, hgroup, hv⟩
  · rintro ⟨values, hgroup, hv⟩
    exact ⟨key, values, hgroup, value, hv, rfl, rfl⟩

end DeliveryPipeline.Grouping
