import DeliveryPipeline.Proofs.Classification.Composition
import Mathlib.Data.List.Count
import Mathlib.Data.List.Nodup
import Mathlib.Data.Prod.Basic

/-!
# How often a handler is listed

A handler is listed under a role and a target once for each of its roles that the strategy turns
into that role, and for each time that the target stands in its list of targets. On trees roles stay
what they are, so a handler is listed once. In streaming two roles of a handler may become one, and
then it is listed twice.
-/
namespace DeliveryPipeline

/-- Streaming turns two of the roles into the given one. -/
def Capabilities.Doubles (c : Capabilities) : Role → Prop
  | .processingPre => .assemblyPre ∈ c.roles ∧ .processingPre ∈ c.roles
  | .processingPost => .assemblyPost ∈ c.roles ∧ .processingPost ∈ c.roles
  | _ => False

theorem Role.under_tree : Role.under .tree = id := rfl

theorem Role.under_stream : Role.under .stream = Role.inStreamMode := rfl

theorem count_map_inStreamMode (roles : List Role) (role : Role) :
    (roles.map Role.inStreamMode).count role =
      match role with
      | .assemblyPre | .assemblyPost => 0
      | .processingPre => roles.count .assemblyPre + roles.count .processingPre
      | .processingPost => roles.count .assemblyPost + roles.count .processingPost
      | role => roles.count role := by
  induction roles with
  | nil => cases role <;> rfl
  | cons r roles ih =>
    rw [List.map_cons, List.count_cons, ih]
    cases role <;> cases r <;> simp [Role.inStreamMode] <;> omega

/-- In streaming, a role is filled more than once when it doubles. -/
theorem Capabilities.count_inStreamMode_le_one_iff (c : Capabilities) (role : Role) :
    (c.roles.map Role.inStreamMode).count role ≤ 1 ↔ ¬ c.Doubles role := by
  have hone (r : Role) : c.roles.count r = if r ∈ c.roles then 1 else 0 := by
    split
    next h => exact List.count_eq_one_of_mem c.roles_nodup h
    next h => exact List.count_eq_zero.2 h
  rw [count_map_inStreamMode]
  cases role <;> simp only [Doubles, hone] <;> grind

theorem count_map_pair (r role : Role) (targets : List String) (target : String) :
    (targets.map fun t => (r, t)).count (role, target) =
      if r = role then targets.count target else 0 := by
  split
  next h =>
    subst h
    exact List.count_map_of_injective targets (Prod.mk r) (Prod.mk_right_injective r)
      target
  next h =>
    rw [List.count_eq_zero]
    intro hmem
    obtain ⟨t, -, ht⟩ := List.mem_map.1 hmem
    exact h (congrArg Prod.fst ht)

/-- How often a handler is bound under a role and a target: the number of its roles that become the
role, times the number of times that the target is given. -/
theorem Handler.count_places (h : Handler) (s : Strategy) (targets : List String) (role : Role)
    (target : String) : (h.places s targets).count (role, target) =
      if h.capabilities.supports s then
        (h.capabilities.roles.map (Role.under s)).count role * targets.count target
      else 0 := by
  unfold places
  split
  next =>
    induction h.capabilities.roles with
    | nil => simp
    | cons r roles ih =>
      rw [List.flatMap_cons, List.count_append, ih, count_map_pair, List.map_cons, List.count_cons]
      by_cases hr : r.under s = role
      · simp [hr, Nat.add_mul, Nat.add_comm]
      · simp [hr]
  next => rfl

/-- Without repeated targets, only roles that become one can bind an entry more than once. -/
theorem Entry.count_places_le_one_iff {e : Entry} (h : e.targets.Nodup) (s : Strategy) (role : Role)
    (target : String) : (e.places s).count (role, target) ≤ 1 ↔
      (e.handler.capabilities.supports s = true → target ∈ e.targets →
        (e.handler.capabilities.roles.map (Role.under s)).count role ≤ 1) := by
  rw [places, Handler.count_places]
  by_cases hsupports : e.handler.capabilities.supports s = true
  · by_cases htarget : target ∈ e.targets
    · simp [hsupports, htarget, List.count_eq_one_of_mem h htarget]
    · simp [hsupports, htarget, List.count_eq_zero.2 htarget]
  · simp [hsupports]

namespace Classification

variable {c : Classification}

/-- Under a role and a target all handlers are different exactly if no entry is bound there more
than once. -/
theorem Coherent.nodup_handlers_iff (hc : c.Coherent) (s : Strategy) (role : Role)
    (target : String) :
    (((c.tables s).handlers role target).map (·.handler.id)).Nodup ↔
      ∀ e ∈ c.entries, (e.places s).count (role, target) ≤ 1 := by
  rw [((hc.perm_listed s role target).map _).nodup_iff, listed, List.map_flatMap,
    List.nodup_flatMap]
  simp only [List.map_replicate, List.nodup_replicate]
  refine and_iff_left ?_
  -- different entries have different handlers, so their repetitions have nothing in common
  have hdistinct : c.entries.Pairwise fun e e' => e.handler.id ≠ e'.handler.id :=
    List.pairwise_map.1 (List.nodup_append.1 hc.nodup_ids).1
  refine hdistinct.imp fun hne => ?_
  intro id hid hid'
  exact hne ((List.eq_of_mem_replicate hid).symm.trans (List.eq_of_mem_replicate hid'))

/-- On trees a composed classification lists every handler at most once under a role and a target.
In streaming it does so exactly if no handler is bound there by two roles that streaming turns into
that role. -/
theorem Composed.listed_once_iff (hc : c.Composed List.Nodup) (role : Role) (target : String) :
    (((c.tables .tree).handlers role target).map (·.handler.id)).Nodup ∧
    ((((c.tables .stream).handlers role target).map (·.handler.id)).Nodup ↔
      ∀ e ∈ c.entries, e.handler.capabilities.supports .stream = true → target ∈ e.targets →
        ¬ e.handler.capabilities.Doubles role) := by
  constructor
  · rw [hc.coherent.nodup_handlers_iff]
    intro e he
    rw [Entry.count_places_le_one_iff (hc.targets e he), Role.under_tree, List.map_id]
    intro _ _
    exact List.nodup_iff_count_le_one.1 e.handler.capabilities.roles_nodup role
  · rw [hc.coherent.nodup_handlers_iff]
    refine forall₂_congr fun e he => ?_
    rw [Entry.count_places_le_one_iff (hc.targets e he), Role.under_stream,
      Capabilities.count_inStreamMode_le_one_iff]

/-- A streaming handler with an assembly role and the processing role that streaming makes of it. -/
def foldedHandler : Handler :=
  ⟨.given 0, "folded", ((Capabilities.empty.addStrategy .stream).addRole .assemblyPre).addRole
    .processingPre⟩

/-- The folded handler under one target. -/
def foldedOnce : Classification :=
  add {} foldedHandler { selector := "p" } ["p"]

/-- The folded handler merged with a streaming serializer, and sorted. -/
def foldedWithSerializer : Classification :=
  let serializer := (Capabilities.empty.addStrategy .stream).addRole .serialize
  (foldedOnce.merge (add {} ⟨.given 1, "serializer", serializer⟩ { selector := "*" }
    ["p", "br"])).sort ⟨"html", []⟩

theorem composed_foldedOnce : foldedOnce.Composed List.Nodup :=
  .add _ _ .empty (by decide)

theorem composed_foldedWithSerializer : foldedWithSerializer.Composed List.Nodup :=
  .sort _ (.merge composed_foldedOnce (.add _ _ .empty (by decide)))

theorem listed_once_of_folded :
    foldedWithSerializer.Composed List.Nodup ∧
    (((foldedWithSerializer.tables .stream).handlers .serialize "p").map (·.handler.id)).Nodup ∧
    ¬ (((foldedWithSerializer.tables .stream).handlers .processingPre "p").map
      (·.handler.id)).Nodup := by
  have honce := Composed.listed_once_iff composed_foldedWithSerializer
  refine ⟨composed_foldedWithSerializer, (honce .serialize "p").2.2 ?_, fun hnodup => ?_⟩
  · exact fun _ _ _ _ hdoubles => hdoubles
  · have hmem : ⟨foldedHandler, { selector := "p" }, ["p"]⟩ ∈ foldedWithSerializer.entries := by
      decide +kernel
    exact (honce .processingPre "p").2.1 hnodup _ hmem (by decide) (by decide)
      ⟨by decide, by decide⟩

/-- A handler is listed twice under one role and one target. -/
theorem folded_listed_twice :
    foldedOnce.Composed List.Nodup ∧
      ((foldedOnce.tables .stream).handlers .processingPre "p").map (·.handler.id) =
        [.given 0, .given 0] :=
  ⟨composed_foldedOnce, by decide⟩

end Classification

end DeliveryPipeline
