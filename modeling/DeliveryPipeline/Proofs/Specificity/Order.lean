import DeliveryPipeline.Specificity

/-!
# Sorting by rank

Ranks are totally preordered, and two ranks that compare alike are the same rank. So a sort by
descending rank is a rearrangement in which no item stands before a more specific one, and items of
one rank keep their order. This determines the sorted list.
-/
namespace DeliveryPipeline

namespace Specificity

/-- One rank is at most another when the first field in which they differ is the lesser. -/
theorem isLE_compare_iff (x y : Specificity) :
    (x.compare y).isLE = true ↔
      x.selector < y.selector ∨ x.selector = y.selector ∧
        (x.profile < y.profile ∨ x.profile = y.profile ∧ x.depth ≤ y.depth) := by
  simp only [compare, Ordering.isLE_then_iff_and, Nat.isLE_compare, Nat.compare_eq_lt]
  omega

theorem isLE_compare_self (x : Specificity) : (x.compare x).isLE = true := by
  rw [isLE_compare_iff]
  omega

theorem isLE_compare_trans {x y z : Specificity} (hxy : (x.compare y).isLE = true)
    (hyz : (y.compare z).isLE = true) : (x.compare z).isLE = true := by
  rw [isLE_compare_iff] at *
  omega

theorem isLE_compare_total (x y : Specificity) :
    (x.compare y).isLE = true ∨ (y.compare x).isLE = true := by
  rw [isLE_compare_iff, isLE_compare_iff]
  omega

/-- Two ranks that are at most each other are the same rank. -/
theorem eq_of_isLE_compare {x y : Specificity} (hxy : (x.compare y).isLE = true)
    (hyx : (y.compare x).isLE = true) : x = y := by
  rw [isLE_compare_iff] at hxy hyx
  obtain ⟨selector, profile, depth⟩ := x
  obtain ⟨selector', profile', depth'⟩ := y
  simp only [mk.injEq]
  dsimp only at hxy hyx
  omega

end Specificity

/-- Items rearranged by descending rank, those of one rank in their old order. -/
structure StablySorted {α : Type} (p : ProfileSet) (descriptor : α → Descriptor)
    (items sorted : List α) : Prop where
  perm : sorted.Perm items
  descending : sorted.Pairwise fun x y =>
    (compareDescriptors p (descriptor x) (descriptor y)).isLE = true
  stable : ∀ rank : Specificity,
    sorted.filter (fun x => Specificity.of p (descriptor x) = rank) =
      items.filter fun x => Specificity.of p (descriptor x) = rank

section Sorting

variable {α : Type} (p : ProfileSet) (descriptor : α → Descriptor) (items : List α)

theorem isLE_compareDescriptors_trans (a b c : α)
    (hab : (compareDescriptors p (descriptor a) (descriptor b)).isLE = true)
    (hbc : (compareDescriptors p (descriptor b) (descriptor c)).isLE = true) :
    (compareDescriptors p (descriptor a) (descriptor c)).isLE = true :=
  Specificity.isLE_compare_trans hbc hab

theorem isLE_compareDescriptors_total (a b : α) :
    ((compareDescriptors p (descriptor a) (descriptor b)).isLE ||
      (compareDescriptors p (descriptor b) (descriptor a)).isLE) = true := by
  rw [Bool.or_eq_true]
  exact Specificity.isLE_compare_total ..

theorem perm_sortBySpecificity : (sortBySpecificity p descriptor items).Perm items :=
  List.mergeSort_perm ..

theorem pairwise_sortBySpecificity :
    (sortBySpecificity p descriptor items).Pairwise fun x y =>
      (compareDescriptors p (descriptor x) (descriptor y)).isLE = true :=
  List.pairwise_mergeSort (isLE_compareDescriptors_trans p descriptor)
    (isLE_compareDescriptors_total p descriptor) items

/-- The items of one rank are in order already, so they survive the sort as they stand. -/
theorem filter_sortBySpecificity (rank : Specificity) :
    (sortBySpecificity p descriptor items).filter
        (fun x => Specificity.of p (descriptor x) = rank) =
      items.filter fun x => Specificity.of p (descriptor x) = rank := by
  have hordered : (items.filter fun x => Specificity.of p (descriptor x) = rank).Pairwise fun x y =>
      (compareDescriptors p (descriptor x) (descriptor y)).isLE = true := by
    apply List.pairwise_of_forall_mem_list
    intro x hx y hy
    simp only [List.mem_filter, decide_eq_true_eq] at hx hy
    rw [compareDescriptors, hx.2, hy.2]
    exact Specificity.isLE_compare_self rank
  have hsub := List.sublist_mergeSort (isLE_compareDescriptors_trans p descriptor)
    (isLE_compareDescriptors_total p descriptor) hordered List.filter_sublist
  have hkept := hsub.filter fun x => decide (Specificity.of p (descriptor x) = rank)
  rw [List.filter_filter] at hkept
  simp only [Bool.and_self] at hkept
  have hperm := (perm_sortBySpecificity p descriptor items).filter
    fun x => decide (Specificity.of p (descriptor x) = rank)
  exact (hkept.eq_of_length hperm.length_eq.symm).symm

/-- A sort by rank is stable. -/
theorem stablySorted_sortBySpecificity :
    StablySorted p descriptor items (sortBySpecificity p descriptor items) where
  perm := perm_sortBySpecificity p descriptor items
  descending := pairwise_sortBySpecificity p descriptor items
  stable := filter_sortBySpecificity p descriptor items

variable {p descriptor}

/-- Items that agree on each rank are the same items. -/
theorem mem_iff_of_ranks {xs ys : List α}
    (h : ∀ rank : Specificity, xs.filter (fun x => Specificity.of p (descriptor x) = rank) =
      ys.filter fun x => Specificity.of p (descriptor x) = rank) (z : α) : z ∈ xs ↔ z ∈ ys := by
  have hrank (zs : List α) : z ∈ zs ↔
      z ∈ zs.filter fun x => Specificity.of p (descriptor x) = Specificity.of p (descriptor z) := by
    simp
  rw [hrank xs, hrank ys, h]

/-- Lists in descending order are equal if they have the same items of each rank in the same
order. -/
theorem eq_of_descending {xs ys : List α}
    (hxs : xs.Pairwise fun x y => (compareDescriptors p (descriptor x) (descriptor y)).isLE = true)
    (hys : ys.Pairwise fun x y => (compareDescriptors p (descriptor x) (descriptor y)).isLE = true)
    (h : ∀ rank : Specificity, xs.filter (fun x => Specificity.of p (descriptor x) = rank) =
      ys.filter fun x => Specificity.of p (descriptor x) = rank) : xs = ys := by
  induction xs generalizing ys with
  | nil =>
    refine (List.eq_nil_iff_forall_not_mem.2 fun y hy => ?_).symm
    cases (mem_iff_of_ranks h y).2 hy
  | cons x xs ih =>
    cases ys with
    | nil => cases (mem_iff_of_ranks h x).1 List.mem_cons_self
    | cons y ys =>
      obtain ⟨hx, htail⟩ := List.pairwise_cons.1 hxs
      obtain ⟨hy, htail'⟩ := List.pairwise_cons.1 hys
      -- each head stands before the other one in one of the lists, unless they are one item
      have hrank : Specificity.of p (descriptor x) = Specificity.of p (descriptor y) := by
        rcases List.mem_cons.1 ((mem_iff_of_ranks h x).1 List.mem_cons_self) with hxy | hxy
        · rw [hxy]
        rcases List.mem_cons.1 ((mem_iff_of_ranks h y).2 List.mem_cons_self) with hyx | hyx
        · rw [hyx]
        exact Specificity.eq_of_isLE_compare (hy x hxy) (hx y hyx)
      have hheads := h (Specificity.of p (descriptor x))
      simp only [List.filter_cons, hrank, decide_true, if_true] at hheads
      obtain ⟨rfl, -⟩ := List.cons.inj hheads
      congr 1
      refine ih htail htail' fun rank => ?_
      have hall := h rank
      simp only [List.filter_cons] at hall
      split at hall
      next => exact (List.cons.inj hall).2
      next => exact hall

/-- To sort the front of a list first changes nothing. -/
theorem sortBySpecificity_append (xs ys : List α) :
    sortBySpecificity p descriptor (sortBySpecificity p descriptor xs ++ ys) =
      sortBySpecificity p descriptor (xs ++ ys) := by
  apply eq_of_descending (pairwise_sortBySpecificity ..) (pairwise_sortBySpecificity ..)
  intro rank
  simp only [filter_sortBySpecificity, List.filter_append]

theorem sortBySpecificity_sortBySpecificity (xs : List α) :
    sortBySpecificity p descriptor (sortBySpecificity p descriptor xs) =
      sortBySpecificity p descriptor xs := by
  have happend := @sortBySpecificity_append _ p descriptor xs []
  rwa [List.append_nil, List.append_nil] at happend

end Sorting

end DeliveryPipeline
