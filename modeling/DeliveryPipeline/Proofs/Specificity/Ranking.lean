import DeliveryPipeline.Proofs.Specificity.Order
import Mathlib.Data.List.Chain

/-!
# The order of descriptors

Descriptors are compared by the kind of their selectors, then by how their profile expressions name
the profiles, then by depth. So the comparison is a total preorder, in which descriptors of one rank
compare as equal. A sort by it is the one rearrangement of a list in which no item stands right
before a more specific one and items that compare as equal keep their order.
-/
namespace DeliveryPipeline

namespace Specificity

theorem selectorRank_eq_two_iff (s : Selector) : selectorRank s = 2 ↔ s.isExact = true := by
  cases s <;> simp [selectorRank, Selector.isExact]

theorem selectorRank_eq_one_iff (s : Selector) :
    selectorRank s = 1 ↔ ∃ name, s = .category name := by
  cases s <;> simp [selectorRank] <;> split <;> simp

theorem selectorRank_le_two (s : Selector) : selectorRank s ≤ 2 := by
  cases s <;> simp [selectorRank] <;> split <;> simp

theorem compare_eq_lt_iff (x y : Specificity) : x.compare y = .lt ↔
    x.selector < y.selector ∨ x.selector = y.selector ∧
      (x.profile < y.profile ∨ x.profile = y.profile ∧ x.depth < y.depth) := by
  simp only [compare, Ordering.then_eq_lt, Nat.compare_eq_lt, Nat.compare_eq_eq]

theorem compare_eq_eq_iff (x y : Specificity) : x.compare y = .eq ↔ x = y := by
  obtain ⟨selector, profile, depth⟩ := x
  obtain ⟨selector', profile', depth'⟩ := y
  simp only [compare, Ordering.then_eq_eq, Nat.compare_eq_eq, mk.injEq]

theorem swap_compare (x y : Specificity) : (x.compare y).swap = y.compare x := by
  simp only [compare, Ordering.swap_then, Nat.compare_swap]

end Specificity

/-- The first descriptor has the higher kind of selector, or names the profiles more closely within
a kind, or is the deeper one if they are alike in this too. -/
def MoreSpecific (p : ProfileSet) (a b : Descriptor) : Prop :=
  Specificity.selectorRank b.parsedSelector < Specificity.selectorRank a.parsedSelector ∨
    Specificity.selectorRank b.parsedSelector = Specificity.selectorRank a.parsedSelector ∧
      (b.profileExpression.specificity p < a.profileExpression.specificity p ∨
        b.profileExpression.specificity p = a.profileExpression.specificity p ∧
          b.parsedSelector.depth < a.parsedSelector.depth)

instance (p : ProfileSet) (a b : Descriptor) : Decidable (MoreSpecific p a b) :=
  inferInstanceAs (Decidable (_ ∨ _))

section Comparison

variable (p : ProfileSet) (a b : Descriptor)

theorem swap_compareDescriptors : (compareDescriptors p a b).swap = compareDescriptors p b a :=
  Specificity.swap_compare ..

theorem compareDescriptors_eq_eq_iff :
    compareDescriptors p a b = .eq ↔ Specificity.of p a = Specificity.of p b := by
  rw [compareDescriptors, Specificity.compare_eq_eq_iff, eq_comm]

theorem compareDescriptors_eq_lt_iff :
    compareDescriptors p a b = .lt ↔ MoreSpecific p a b := by
  simp only [compareDescriptors, Specificity.compare_eq_lt_iff, Specificity.of, MoreSpecific]

theorem compareDescriptors_ne_gt_iff :
    compareDescriptors p a b ≠ .gt ↔ (compareDescriptors p a b).isLE = true :=
  Ordering.ne_gt_iff_isLE

theorem moreSpecific_iff : MoreSpecific p a b ↔
    (compareDescriptors p a b).isLE = true ∧ Specificity.of p a ≠ Specificity.of p b := by
  rw [← compareDescriptors_eq_lt_iff, Ne, ← compareDescriptors_eq_eq_iff]
  cases compareDescriptors p a b <;> decide

/-- Descriptors of one selector differ in rank by their profiles alone. -/
theorem moreSpecific_iff_of_selector {a b : Descriptor}
    (hselector : a.parsedSelector = b.parsedSelector) : MoreSpecific p a b ↔
      b.profileExpression.specificity p < a.profileExpression.specificity p := by
  simp [MoreSpecific, hselector]

theorem not_moreSpecific_iff :
    ¬ MoreSpecific p b a ↔ (compareDescriptors p a b).isLE = true := by
  rw [← compareDescriptors_eq_lt_iff, ← swap_compareDescriptors]
  cases compareDescriptors p a b <;> decide

end Comparison

/-- Items rearranged so that none stands right before a more specific one, while items that compare
as equal keep their order. -/
structure Ranked {α : Type} (p : ProfileSet) (descriptor : α → Descriptor)
    (items ranked : List α) : Prop where
  perm : ranked.Perm items
  neighbours : ranked.IsChain fun x y => compareDescriptors p (descriptor x) (descriptor y) ≠ .gt
  ties : ∀ x ∈ items,
    ranked.filter (fun y => compareDescriptors p (descriptor x) (descriptor y) = .eq) =
      items.filter fun y => compareDescriptors p (descriptor x) (descriptor y) = .eq

section Sorting

variable {α : Type} {p : ProfileSet} {descriptor : α → Descriptor} {items : List α}

/-- Items that compare as equal to a given one are those of its rank. -/
theorem filter_ties (x : α) (ys : List α) :
    ys.filter (fun y => compareDescriptors p (descriptor x) (descriptor y) = .eq) =
      ys.filter fun y => Specificity.of p (descriptor y) = Specificity.of p (descriptor x) := by
  refine List.filter_congr fun y _ => ?_
  rw [decide_eq_decide, compareDescriptors_eq_eq_iff, eq_comm]

theorem StablySorted.ranked {sorted : List α} (h : StablySorted p descriptor items sorted) :
    Ranked p descriptor items sorted where
  perm := h.perm
  neighbours := h.descending.isChain.imp fun _ _ => (compareDescriptors_ne_gt_iff ..).2
  ties x _ := by rw [filter_ties, filter_ties, h.stable]

/-- The order is transitive, so it holds of all pairs once it holds of neighbours. -/
theorem Ranked.stablySorted {ranked : List α} (h : Ranked p descriptor items ranked) :
    StablySorted p descriptor items ranked where
  perm := h.perm
  descending := by
    have : Trans (fun x y : α => (compareDescriptors p (descriptor x) (descriptor y)).isLE = true)
        (fun x y => (compareDescriptors p (descriptor x) (descriptor y)).isLE = true)
        (fun x y => (compareDescriptors p (descriptor x) (descriptor y)).isLE = true) :=
      ⟨isLE_compareDescriptors_trans p descriptor _ _ _⟩
    exact (h.neighbours.imp fun _ _ => (compareDescriptors_ne_gt_iff ..).1).pairwise
  stable rank := by
    by_cases hrank : ∃ x ∈ items, Specificity.of p (descriptor x) = rank
    · obtain ⟨x, hx, rfl⟩ := hrank
      rw [← filter_ties, ← filter_ties, h.ties x hx]
    · -- no item has the rank, before the rearrangement as after it
      have hnone : ∀ x ∈ items, ¬ Specificity.of p (descriptor x) = rank :=
        fun x hx hsame => hrank ⟨x, hx, hsame⟩
      have hnone' : ∀ x ∈ ranked, ¬ Specificity.of p (descriptor x) = rank :=
        fun x hx => hnone x (h.perm.mem_iff.1 hx)
      rw [List.filter_eq_nil_iff.2 (by simpa using hnone'),
        List.filter_eq_nil_iff.2 (by simpa using hnone)]

/-- A stable sort is determined by the order and the ties. -/
theorem StablySorted.eq_sortBySpecificity {sorted : List α}
    (h : StablySorted p descriptor items sorted) : sorted = sortBySpecificity p descriptor items :=
  eq_of_descending h.descending (pairwise_sortBySpecificity p descriptor items) fun rank => by
    rw [h.stable, filter_sortBySpecificity]

theorem ranked_iff {ranked : List α} :
    Ranked p descriptor items ranked ↔ ranked = sortBySpecificity p descriptor items := by
  constructor
  · exact fun h => h.stablySorted.eq_sortBySpecificity
  · rintro rfl
    exact (stablySorted_sortBySpecificity p descriptor items).ranked

variable (p descriptor)

/-- Descriptors are totally preordered, by the kind of the selector first, a certain element before
a category and this before all else, then by the profiles, then by depth. A sort comes to the one
rearrangement in which no item stands right before a more specific one and ties keep their order. So
to sort again changes nothing, and neither does it to sort the front of a list first. -/
theorem sortBySpecificity_by_preorder :
    ((∀ a, compareDescriptors p a a = .eq) ∧
      (∀ a b, compareDescriptors p a b = (compareDescriptors p b a).swap) ∧
      (∀ a b c, (compareDescriptors p a b).isLE = true → (compareDescriptors p b c).isLE = true →
        (compareDescriptors p a c).isLE = true) ∧
      ∀ a b, (compareDescriptors p a b).isLE = true ∨ (compareDescriptors p b a).isLE = true) ∧
    ((∀ a b, compareDescriptors p a b = .lt ↔ MoreSpecific p a b) ∧
      ∀ s, (Specificity.selectorRank s = 2 ↔ s.isExact = true) ∧
        (Specificity.selectorRank s = 1 ↔ ∃ name, s = .category name) ∧
        Specificity.selectorRank s ≤ 2) ∧
    (∀ items ranked : List α, Ranked p descriptor items ranked ↔
      ranked = sortBySpecificity p descriptor items) ∧
    (∀ xs : List α, sortBySpecificity p descriptor (sortBySpecificity p descriptor xs) =
      sortBySpecificity p descriptor xs) ∧
    ∀ xs ys : List α, sortBySpecificity p descriptor (xs ++ ys) =
      sortBySpecificity p descriptor (sortBySpecificity p descriptor xs ++ ys) := by
  refine ⟨⟨fun a => ?_, fun a b => ?_, fun a b c => ?_, fun a b => ?_⟩,
    ⟨compareDescriptors_eq_lt_iff p, fun s => ?_⟩, fun items ranked => ranked_iff,
    sortBySpecificity_sortBySpecificity,
    fun xs ys => (sortBySpecificity_append xs ys).symm⟩
  · rw [compareDescriptors_eq_eq_iff]
  · rw [swap_compareDescriptors]
  · exact isLE_compareDescriptors_trans p id a b c
  · exact Specificity.isLE_compare_total ..
  · exact ⟨Specificity.selectorRank_eq_two_iff s, Specificity.selectorRank_eq_one_iff s,
      Specificity.selectorRank_le_two s⟩

/-- Descriptors of every kind for an element, the least specific first, and a second element. -/
def climbingDescriptors : List Descriptor :=
  [{ selector := "*" }, { selector := "macro:empty" }, { selector := "br" }, { selector := "hr" },
    { selector := "p br" }, { selector := "br", profile := "html" }]

/-- The list is turned around, except for the two elements of one rank. -/
theorem sortBySpecificity_climbingDescriptors :
    sortBySpecificity ⟨"html", []⟩ id climbingDescriptors =
      [{ selector := "br", profile := "html" }, { selector := "p br" }, { selector := "br" },
        { selector := "hr" }, { selector := "macro:empty" }, { selector := "*" }] ∧
    (compareDescriptors ⟨"html", []⟩ { selector := "p br" } { selector := "*" }).isLE = true := by
  obtain ⟨⟨-, -, htrans, -⟩, -, hranked, -⟩ :=
    sortBySpecificity_by_preorder ⟨"html", []⟩ (@id Descriptor)
  constructor
  · symm
    rw [← hranked]
    exact ⟨by decide +kernel, by decide +kernel, by decide +kernel⟩
  · apply htrans _ { selector := "br" } _
    · decide +kernel
    · decide +kernel

end Sorting

end DeliveryPipeline
