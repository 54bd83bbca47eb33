import DeliveryPipeline.Proofs.Classification.Placement
import Mathlib.Data.List.Forall2

/-!
# Exchanging a handler

Two handlers that support the same strategies and have the same roles, in whatever order, may be
exchanged before they are added: the role tables are the same then, but for the one handler where
the other would stand.
-/
namespace DeliveryPipeline

/-- Groups that agree in their keys and, value by value, in what the relation sees. -/
def Grouping.RelGroups {κ α : Type} (R : α → α → Prop) (xs ys : List (κ × List α)) : Prop :=
  List.Forall₂ (fun x y => x.1 = y.1 ∧ List.Forall₂ R x.2 y.2) xs ys

namespace Grouping.RelGroups

variable {κ α : Type} [DecidableEq κ] {R : α → α → Prop} {xs ys : List (κ × List α)}

omit [DecidableEq κ] in
theorem refl (hR : ∀ a, R a a) (xs : List (κ × List α)) : RelGroups R xs xs :=
  List.forall₂_same.2 fun _ _ => ⟨rfl, List.forall₂_same.2 fun a _ => hR a⟩

theorem pushTo (h : RelGroups R xs ys) (key : κ) {a b : α} (hab : R a b) :
    RelGroups R (Grouping.pushTo key a xs) (Grouping.pushTo key b ys) := by
  induction h with
  | nil => exact .cons ⟨rfl, .cons hab .nil⟩ .nil
  | @cons x y xs ys hxy hrest ih =>
    obtain ⟨k, values⟩ := x
    obtain ⟨k', values'⟩ := y
    obtain ⟨rfl, hvalues⟩ := hxy
    rw [Grouping.pushTo, Grouping.pushTo]
    split
    next => exact .cons ⟨rfl, List.rel_append hvalues (.cons hab .nil)⟩ hrest
    next => exact .cons ⟨rfl, hvalues⟩ ih

theorem foldl_pushTo (h : RelGroups R xs ys) (keys : List κ) {a b : α} (hab : R a b) :
    RelGroups R (keys.foldl (fun groups key => Grouping.pushTo key a groups) xs)
      (keys.foldl (fun groups key => Grouping.pushTo key b groups) ys) := by
  induction keys generalizing xs ys with
  | nil => exact h
  | cons key keys ih => exact ih (h.pushTo key hab)

end Grouping.RelGroups

namespace RoleTables

/-- A binding changes the table of its own role alone. -/
theorem table_push (t : RoleTables) (r role : Role) (target : String) (b : Binding) :
    table (t.push (r, target) b) role =
      if r = role then Grouping.pushTo target b (t.table role) else t.table role := by
  obtain ⟨groups⟩ := t
  simp only [table, Grouping.push]
  induction groups with
  | nil => by_cases h : r = role <;> simp [Grouping.pushTo, h]
  | cons group rest ih =>
    obtain ⟨⟨r', x⟩, bindings⟩ := group
    by_cases hkey : (r', x) = (r, target)
    · obtain ⟨rfl, rfl⟩ := Prod.mk.inj hkey
      by_cases hrole : r' = role <;> simp [Grouping.pushTo, hrole]
    · -- the group stays, and it is a row of the table if it is one of the role
      rw [Grouping.pushTo, if_neg hkey]
      by_cases hrole : r' = role
      · subst hrole
        by_cases hr : r = r'
        · have hx : x ≠ target := fun hx => hkey (by rw [hr, hx])
          simp_all [Grouping.pushTo]
        · simp_all
      · simp_all

theorem table_bindAll (t : RoleTables) (keys : List (Role × String)) (b : Binding) (role : Role) :
    (t.bindAll keys b).table role =
      ((keys.filter (·.1 == role)).map (·.2)).foldl
        (fun groups target => Grouping.pushTo target b groups) (t.table role) := by
  rw [bindAll]
  induction keys generalizing t with
  | nil => rfl
  | cons key keys ih =>
    obtain ⟨r, target⟩ := key
    rw [List.foldl_cons, ih, table_push, List.filter_cons]
    by_cases h : r = role <;> simp [h]

end RoleTables

/-- The targets under which a handler is bound in the table of a role: all its targets, once more
for each of its roles that the strategy turns into that role. -/
theorem Handler.targets_places (h : Handler) (s : Strategy) (targets : List String) (role : Role) :
    ((h.places s targets).filter (·.1 == role)).map (·.2) =
      if h.capabilities.supports s then
        (List.replicate ((h.capabilities.roles.map (Role.under s)).count role) targets).flatten
      else [] := by
  unfold places
  split
  next =>
    induction h.capabilities.roles with
    | nil => rfl
    | cons r roles ih =>
      rw [List.flatMap_cons, List.filter_append, List.map_append, ih, List.map_cons,
        List.count_cons]
      by_cases hr : r.under s = role
      · simp [hr, List.filter_map, Function.comp_def, List.replicate_succ]
      · simp [hr, List.filter_map, Function.comp_def]
  next => rfl

/-- The handlers support the same strategies, and have the same roles in any order. -/
structure Handler.Interchangeable (h h' : Handler) : Prop where
  supports_eq : ∀ s, h.capabilities.supports s = h'.capabilities.supports s
  roles_perm : h.capabilities.roles.Perm h'.capabilities.roles

theorem Handler.Interchangeable.targets_places {h h' : Handler} (hsame : h.Interchangeable h')
    (s : Strategy) (targets : List String) (role : Role) :
    ((h.places s targets).filter (·.1 == role)).map (·.2) =
      ((h'.places s targets).filter (·.1 == role)).map (·.2) := by
  rw [Handler.targets_places, Handler.targets_places, hsame.supports_eq,
    (hsame.roles_perm.map _).count_eq]

/-- The bindings are the same, or they bind the two handlers to the descriptor. -/
def Binding.Exchanged (h h' : Handler) (d : Descriptor) (b b' : Binding) : Prop :=
  b = b' ∨ b = ⟨h, d⟩ ∧ b' = ⟨h', d⟩

/-- For each role the tables list the same under the same targets, in the same order, but for the
one handler where the other stands. -/
def RoleTables.Exchanged (h h' : Handler) (d : Descriptor) (t t' : RoleTables) : Prop :=
  ∀ role, Grouping.RelGroups (Binding.Exchanged h h' d) (t.table role) (t'.table role)

theorem RoleTables.exchanged_refl (h h' : Handler) (d : Descriptor) (t : RoleTables) :
    t.Exchanged h h' d t :=
  fun _ => .refl (fun _ => .inl rfl) _

namespace Classification

variable {c : Classification} {h h' : Handler}

/-- Handlers that may be exchanged are added alike, where both are recorded or neither is. -/
theorem exchanged_add (hsame : h.Interchangeable h')
    (hcontains : c.contains h.id = c.contains h'.id) (d : Descriptor) (targets : List String)
    (s : Strategy) :
    ((c.add h d targets).tables s).Exchanged h h' d ((c.add h' d targets).tables s) := by
  cases hknown : c.contains h.id with
  | true =>
    rw [add_of_contains hknown, add_of_contains (hcontains.symm.trans hknown)]
    exact RoleTables.exchanged_refl h h' d _
  | false =>
    intro role
    rw [tables_add_of_new hknown, tables_add_of_new (hcontains.symm.trans hknown),
      RoleTables.table_bindAll, RoleTables.table_bindAll, hsame.targets_places]
    exact (RoleTables.exchanged_refl h h' d _ role).foldl_pushTo _ (.inr ⟨rfl, rfl⟩)

end Classification

end DeliveryPipeline
