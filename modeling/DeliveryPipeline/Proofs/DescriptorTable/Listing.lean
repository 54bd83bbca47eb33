import DeliveryPipeline.DescriptorTable.Build
import DeliveryPipeline.Proofs.Grouping.Keys
import DeliveryPipeline.Proofs.Selector.Separators
import DeliveryPipeline.Proofs.Specificity.Order

/-!
# What a descriptor table lists

A built table lists a descriptor under its targets and nowhere else. Whether the lists are sorted
makes no difference to this.
-/
namespace DeliveryPipeline

/-- A descriptor that is not of a category has the one target that its selector names, if any. -/
theorem targetsFor_eq_toList {d : Descriptor} (h : ∀ name, d.parsedSelector ≠ .category name)
    (p : ProfileSet) (schema : Option Schema) :
    targetsFor p schema d = .ok d.parsedSelector.target?.toList := by
  unfold targetsFor
  split
  next name hname => exact absurd hname (h name)
  next => rfl

theorem targetsFor_eq_singleton {d : Descriptor} {target : String}
    (h : d.parsedSelector.target? = some target) (p : ProfileSet) (schema : Option Schema) :
    targetsFor p schema d = .ok [target] := by
  rw [targetsFor_eq_toList, h]
  · rfl
  · intro name hname
    rw [hname] at h
    cases h

namespace DescriptorTable

variable {t table : DescriptorTable} {p : ProfileSet} {schema : Option Schema} {d e : Descriptor}
  {ds : List Descriptor} {key : String}

theorem mem_get_insert {target : String} :
    d ∈ (t.insert target e).get key ↔ d ∈ t.get key ∨ d = e ∧ key = target := by
  unfold insert contains
  split
  next hlisted =>
    refine (or_iff_left_of_imp ?_).symm
    rintro ⟨rfl, rfl⟩
    exact of_decide_eq_true hlisted
  next =>
    rw [Grouping.get_push]
    split
    next hkey => simp [hkey]
    next hkey => simp [hkey]

theorem mem_get_insertAll {targets : List String} :
    d ∈ (t.insertAll targets e).get key ↔ d ∈ t.get key ∨ d = e ∧ key ∈ targets := by
  unfold insertAll
  induction targets generalizing t with
  | nil => simp
  | cons target targets ih => rw [List.foldl_cons, ih, mem_get_insert, List.mem_cons]; tauto

theorem mem_get_sort : d ∈ (t.sort p).get key ↔ d ∈ t.get key := by
  rw [sort, Grouping.get_mapLists _ (by simp [sortBySpecificity])]
  exact (perm_sortBySpecificity p id (t.get key)).mem_iff

theorem mem_get_insertLiteral : d ∈ (t.insertLiteral e).get key ↔
    d ∈ t.get key ∨ d = e ∧ e.parsedSelector.target? = some key := by
  unfold insertLiteral
  split
  next target htarget => rw [mem_get_insert, htarget, Option.some.injEq, eq_comm (a := key)]
  next htarget => simp [htarget]

/-- The first table lists the descriptors whose selectors name the target. -/
theorem mem_get_ofLiterals :
    d ∈ (ofLiterals ds).get key ↔ d ∈ ds ∧ d.parsedSelector.target? = some key := by
  have hfold : ∀ t : DescriptorTable, d ∈ (ds.foldl insertLiteral t).get key ↔
      d ∈ t.get key ∨ d ∈ ds ∧ d.parsedSelector.target? = some key := by
    induction ds with
    | nil => simp
    | cons e ds ih =>
      intro t
      rw [List.foldl_cons, ih, mem_get_insertLiteral, List.mem_cons]
      grind
  rw [ofLiterals, hfold, Grouping.get_empty]
  simp

/-- Expansion lists the descriptors that were held back under their targets. -/
theorem mem_get_expansion (h : ds.foldlM (expand p schema) t = .ok table) :
    d ∈ table.get key ↔ d ∈ t.get key ∨
      d ∈ ds ∧ ∃ targets, targetsFor p schema d = .ok targets ∧ key ∈ targets := by
  induction ds generalizing t with
  | nil =>
    cases h
    simp
  | cons e ds ih =>
    rw [List.foldlM_cons, Error.bind_eq_ok_iff] at h
    obtain ⟨t', hexpand, hrest⟩ := h
    rw [expand, Error.bind_eq_ok_iff] at hexpand
    obtain ⟨targets, htargets, hinsert⟩ := hexpand
    cases hinsert
    rw [ih hrest, mem_get_insertAll, List.mem_cons]
    grind

/-- A built table lists the given descriptors under their targets, and nothing else. -/
theorem mem_get_build (h : build p schema ds = .ok table) :
    d ∈ table.get key ↔
      d ∈ ds ∧ ∃ targets, targetsFor p schema d = .ok targets ∧ key ∈ targets := by
  rw [build, Error.bind_eq_ok_iff] at h
  obtain ⟨expanded, hexpanded, hsorted⟩ := h
  have hlisted : d ∈ expanded.get key ↔ d ∈ (ofLiterals ds).get key ∨
      d ∈ heldBack ds ∧ ∃ targets, targetsFor p schema d = .ok targets ∧ key ∈ targets := by
    rw [mem_get_expansion hexpanded]
    split
    next => rw [mem_get_sort]
    next => rfl
  have htable : d ∈ table.get key ↔ d ∈ expanded.get key := by
    cases hsorted
    split
    next => exact mem_get_sort
    next => rfl
  rw [htable, hlisted, mem_get_ofLiterals, heldBack, List.mem_filter]
  cases htarget : d.parsedSelector.target? with
  | none => simp
  | some target => simp [targetsFor_eq_singleton htarget, eq_comm]

/-- A descriptor that is not of a category is listed under the one target that its selector names,
and nowhere if it names none. -/
theorem mem_get_build_iff_target (h : build p schema ds = .ok table) (hd : d ∈ ds)
    (hselector : ∀ name, d.parsedSelector ≠ .category name) :
    d ∈ table.get key ↔ d.parsedSelector.target? = some key := by
  rw [mem_get_build h, targetsFor_eq_toList hselector]
  simp [hd]

/-- The table comes from the empty one by insertions and sorts. -/
inductive Reachable : DescriptorTable → Prop where
  | empty : Reachable Grouping.empty
  | insert {t : DescriptorTable} (target : String) (d : Descriptor) :
    Reachable t → Reachable (t.insert target d)
  | sort {t : DescriptorTable} (p : ProfileSet) : Reachable t → Reachable (t.sort p)

theorem Reachable.insertAll (ht : t.Reachable) (targets : List String) (d : Descriptor) :
    (t.insertAll targets d).Reachable :=
  List.foldlRecOn targets _ ht fun _ ht target _ => ht.insert target d

/-- Every built table comes from the empty one by insertions and sorts. -/
theorem reachable_of_build (h : build p schema ds = .ok table) : table.Reachable := by
  rw [build, Error.bind_eq_ok_iff] at h
  obtain ⟨expanded, hexpanded, hsorted⟩ := h
  have hliterals : (ofLiterals ds).Reachable := by
    refine List.foldlRecOn ds insertLiteral .empty fun t ht d _ => ?_
    unfold insertLiteral
    split
    next target _ => exact ht.insert target d
    next => exact ht
  have hexpansion : ∀ (held : List Descriptor) (t : DescriptorTable), t.Reachable →
      held.foldlM (expand p schema) t = .ok expanded → expanded.Reachable := by
    intro held
    induction held with
    | nil =>
      intro t ht h
      cases h
      exact ht
    | cons d held ih =>
      intro t ht h
      rw [List.foldlM_cons, Error.bind_eq_ok_iff] at h
      obtain ⟨t', hexpand, hrest⟩ := h
      rw [expand, Error.bind_eq_ok_iff] at hexpand
      obtain ⟨targets, -, hinserted⟩ := hexpand
      cases hinserted
      exact ih _ (ht.insertAll targets d) hrest
  have hreachable : expanded.Reachable := by
    refine hexpansion _ _ ?_ hexpanded
    split
    next => exact hliterals.sort p
    next => exact hliterals
  cases hsorted
  split
  next => exact hreachable.sort p
  next => exact hreachable

/-- A table has each target once. -/
theorem Reachable.nodup_keys (h : table.Reachable) : table.keys.Nodup := by
  induction h with
  | empty => exact Grouping.nodup_keys_empty
  | insert target d _ ih =>
    unfold DescriptorTable.insert
    split
    next => exact ih
    next => exact Grouping.nodup_keys_push ih target d
  | sort p _ ih => rwa [DescriptorTable.sort, Grouping.keys_mapLists]

theorem nodup_keys_build (h : build p schema ds = .ok table) : table.keys.Nodup :=
  (reachable_of_build h).nodup_keys

end DescriptorTable

end DeliveryPipeline
