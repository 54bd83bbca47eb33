import Mathlib.Data.List.Induction
import Mathlib.Data.List.Nodup

/-!
# First occurrences

Without its repeats a list holds each value once, where it first stands. A repeat at the end is
dropped, so what is said of such lists is proved from the end. A fold for which a repeat is idle, or
a search, finds the same in both lists. Where values are put behind a list one after another, each
unless it is there, the list gets those that it did not have, without repeats.
-/
namespace DeliveryPipeline

variable {α β : Type} [DecidableEq α]

theorem eraseDups_concat (xs : List α) (x : α) :
    (xs ++ [x]).eraseDups = if x ∈ xs then xs.eraseDups else xs.eraseDups ++ [x] := by
  rw [List.eraseDups_append]
  by_cases h : x ∈ xs
  · simp [List.removeAll, h]
  · simp [List.removeAll, h, List.eraseDups_cons]

/-- Put a value behind a list unless it is there. -/
def pushNew (xs : List α) (x : α) : List α :=
  if x ∈ xs then xs else xs ++ [x]

theorem nodup_pushNew {xs : List α} (h : xs.Nodup) (x : α) : (pushNew xs x).Nodup := by
  unfold pushNew
  split
  next => exact h
  next hnew =>
    rw [List.nodup_append_comm, List.singleton_append, List.nodup_cons]
    exact ⟨hnew, h⟩

theorem foldl_pushNew (base xs : List α) :
    xs.foldl pushNew base = base ++ (xs.removeAll base).eraseDups := by
  induction xs generalizing base with
  | nil => simp [List.removeAll]
  | cons x xs ih =>
    rw [List.foldl_cons, ih, pushNew]
    by_cases h : x ∈ base
    · simp [h, List.removeAll]
    · simp [h, List.eraseDups_cons, List.removeAll, List.filter_filter, Bool.and_comm,
        Bool.beq_eq_decide_eq]

theorem foldl_pushNew_nil (xs : List α) : xs.foldl pushNew [] = xs.eraseDups := by
  simp [foldl_pushNew, List.removeAll]

theorem nodup_eraseDups (xs : List α) : xs.eraseDups.Nodup := by
  rw [← foldl_pushNew_nil]
  exact List.foldlRecOn xs pushNew List.nodup_nil fun _ h x _ => nodup_pushNew h x

theorem eraseDups_of_nodup {xs : List α} (h : xs.Nodup) : xs.eraseDups = xs := by
  induction xs using List.reverseRecOn with
  | nil => simp
  | append_singleton xs x ih =>
    have hnew : x ∉ xs := by
      rw [List.nodup_append_comm, List.singleton_append, List.nodup_cons] at h
      exact h.1
    rw [eraseDups_concat, if_neg hnew, ih (List.nodup_append.1 h).1]

theorem filter_eraseDups (q : α → Bool) (xs : List α) :
    xs.eraseDups.filter q = (xs.filter q).eraseDups := by
  induction xs using List.reverseRecOn with
  | nil => simp
  | append_singleton xs x ih =>
    rw [eraseDups_concat, List.filter_append]
    by_cases hx : x ∈ xs <;> by_cases hq : q x = true <;>
      simp [eraseDups_concat, hx, hq, ih]

theorem map_eraseDups [DecidableEq β] {f : α → β} (hf : Function.Injective f) (xs : List α) :
    xs.eraseDups.map f = (xs.map f).eraseDups := by
  induction xs using List.reverseRecOn with
  | nil => simp
  | append_singleton xs x ih =>
    rw [eraseDups_concat, List.map_append, List.map_singleton, eraseDups_concat]
    by_cases hx : x ∈ xs <;> simp [List.mem_map_of_injective hf, hx, ih]

/-- Values that are there before make no difference. -/
theorem eraseDups_append_of_subset {xs ys : List α} (h : ys ⊆ xs) (zs : List α) :
    (xs ++ (ys ++ zs)).eraseDups = (xs ++ zs).eraseDups := by
  have hnone : ys.filter (fun y => !xs.elem y) = [] := by
    rw [List.filter_eq_nil_iff]
    intro y hy
    simp [h hy]
  rw [List.eraseDups_append, List.eraseDups_append, List.removeAll, List.filter_append, hnone]
  rfl

theorem findSome?_eraseDups (f : α → Option β) (xs : List α) :
    xs.eraseDups.findSome? f = xs.findSome? f := by
  induction xs using List.reverseRecOn with
  | nil => simp
  | append_singleton xs x ih =>
    rw [eraseDups_concat, List.findSome?_append]
    split
    next hx =>
      rw [ih]
      cases hfound : xs.findSome? f with
      | some b => rfl
      | none => simp [List.findSome?_eq_none_iff.1 hfound x hx]
    next => rw [List.findSome?_append, ih]

theorem find?_eraseDups (q : α → Bool) (xs : List α) : xs.eraseDups.find? q = xs.find? q := by
  rw [List.find?_eq_findSome?_guard, findSome?_eraseDups, ← List.find?_eq_findSome?_guard]

/-- Where it is known which steps have been taken, steps stay taken, and to take one again is idle,
a fold comes to the same with the first occurrences alone. -/
theorem foldl_eraseDups {f : β → α → β} {T : β → α → Prop} (idle : ∀ {b a}, T b a → f b a = b)
    (takes : ∀ b a, T (f b a) a) (keeps : ∀ {b a} a', T b a → T (f b a') a) (xs : List α) (b : β) :
    xs.eraseDups.foldl f b = xs.foldl f b := by
  have htaken : ∀ xs : List α, ∀ x ∈ xs, T (xs.foldl f b) x := by
    intro xs
    induction xs using List.reverseRecOn with
    | nil => simp
    | append_singleton xs y ih =>
      intro x hx
      rw [List.foldl_append, List.foldl_cons, List.foldl_nil]
      rcases List.mem_append.1 hx with hx | hx
      · exact keeps y (ih x hx)
      · rw [List.mem_singleton.1 hx]
        exact takes _ y
  induction xs using List.reverseRecOn with
  | nil => simp
  | append_singleton xs x ih =>
    rw [eraseDups_concat, List.foldl_append, List.foldl_cons, List.foldl_nil]
    split
    next hx => rw [ih, idle (htaken xs x hx)]
    next => rw [List.foldl_append, ih, List.foldl_cons, List.foldl_nil]

end DeliveryPipeline
