import DeliveryPipeline.Proofs.Classification.Multiplicity
import DeliveryPipeline.Proofs.Grouping.Pairs
import Mathlib.Algebra.GroupWithZero.Nat

/-!
# The books of a classification

A classification says twice which handlers stand where: the entries say it with roles and targets,
and the role tables list the handlers. However a classification is composed, the two agree in number
and kind. Only a sort makes the tables depart from the order of the entries.
-/
namespace DeliveryPipeline

/-- What an entry puts under a role and a target: its binding for each of its roles that the
strategy turns into the role, and for each time that the target stands among its targets. -/
def Entry.bindingsAt (e : Entry) (s : Strategy) (role : Role) (target : String) : List Binding :=
  (e.handler.capabilities.roles.filter fun r => r.under s = role).flatMap fun _ =>
    (e.targets.filter fun t => t = target).map fun _ => e.binding

theorem Entry.bindingsAt_eq_replicate (e : Entry) (s : Strategy) (role : Role) (target : String) :
    e.bindingsAt s role target = List.replicate
      ((e.handler.capabilities.roles.map (Role.under s)).count role * e.targets.count target)
      e.binding := by
  have hroles : (e.handler.capabilities.roles.map (Role.under s)).count role =
      (e.handler.capabilities.roles.filter fun r => r.under s = role).length := by
    rw [List.count, List.countP_map, List.countP_eq_length_filter]
    rfl
  have htargets : e.targets.count target = (e.targets.filter fun t => t = target).length := by
    rw [List.count, List.countP_eq_length_filter]
    rfl
  rw [bindingsAt, List.flatMap_def, List.map_const', List.map_const',
    List.flatten_replicate_replicate, hroles, htargets]

theorem Entry.length_places (e : Entry) (s : Strategy) :
    (e.places s).length = if e.handler.capabilities.supports s then
      e.handler.capabilities.roles.length * e.targets.length else 0 := by
  rw [places, Handler.places]
  split <;> simp

theorem Entry.exists_role_of_mem_places {e : Entry} {s : Strategy} {role : Role} {target : String}
    (h : (role, target) ∈ e.places s) :
    ∃ r ∈ e.handler.capabilities.roles, r.under s = role :=
  ((mem_places_iff (supports_of_mem_places h) role target).1 h).1

theorem RoleTables.bindingCount_bindAll (t : RoleTables) (keys : List (Role × String))
    (b : Binding) : (t.bindAll keys b).bindingCount = t.bindingCount + keys.length := by
  unfold bindAll bindingCount
  induction keys generalizing t with
  | nil => rfl
  | cons key keys ih =>
    rw [List.foldl_cons, ih, (Grouping.perm_pairs_push t key b).length_eq]
    simp only [List.length_cons]
    omega

theorem RoleTables.noEmptyList_bindAll {t : RoleTables} (h : t.NoEmptyList)
    (keys : List (Role × String)) (b : Binding) : (t.bindAll keys b).NoEmptyList := by
  unfold bindAll
  induction keys generalizing t with
  | nil => exact h
  | cons key keys ih => exact ih (h.push key b)

namespace Classification

variable {c : Classification}

/-- What the entries that support a strategy put under a role and a target, entry after entry. -/
def bindingsAt (c : Classification) (s : Strategy) (role : Role) (target : String) :
    List Binding :=
  (c.entries.filter fun e => e.handler.capabilities.supports s).flatMap fun e =>
    e.bindingsAt s role target

theorem listed_eq_bindingsAt (c : Classification) (s : Strategy) (role : Role) (target : String) :
    c.listed s role target = c.bindingsAt s role target := by
  unfold listed bindingsAt
  induction c.entries with
  | nil => rfl
  | cons e entries ih =>
    rw [List.flatMap_cons, ih, Entry.places, Handler.count_places]
    cases hsupports : e.handler.capabilities.supports s with
    | true => simp only [hsupports, if_true, List.filter_cons, List.flatMap_cons,
        Entry.bindingsAt_eq_replicate]
    | false => simp only [hsupports, Bool.false_eq_true, if_false, List.filter_cons,
        List.replicate_zero, List.nil_append]

theorem sum_length_places (entries : List Entry) (s : Strategy) :
    (entries.map fun e => (e.places s).length).sum =
      ((entries.filter fun e => e.handler.capabilities.supports s).map fun e =>
        e.handler.capabilities.roles.length * e.targets.length).sum := by
  induction entries with
  | nil => rfl
  | cons e entries ih =>
    rw [List.map_cons, List.sum_cons, ih, Entry.length_places]
    cases hsupports : e.handler.capabilities.supports s with
    | true => simp only [hsupports, if_true, List.filter_cons, List.map_cons, List.sum_cons]
    | false => simp only [hsupports, Bool.false_eq_true, if_false, List.filter_cons, Nat.zero_add]

/-- The tables hold as much as the entries say, and no empty lists. -/
structure Stocked (c : Classification) : Prop where
  noEmptyList : ∀ s, (c.tables s).NoEmptyList
  bindingCount_eq : ∀ s,
    (c.tables s).bindingCount = (c.entries.map fun e => (e.places s).length).sum

theorem stocked_empty : Stocked {} where
  noEmptyList s := by cases s <;> exact Grouping.noEmptyList_empty
  bindingCount_eq s := by cases s <;> rfl

theorem Stocked.add (hc : c.Stocked) (h : Handler) (d : Descriptor) (targets : List String) :
    (c.add h d targets).Stocked := by
  rcases add_cases c h d targets with ⟨hentries, htables⟩ | ⟨hentries, htables⟩
  · exact ⟨fun s => htables s ▸ hc.noEmptyList s,
      fun s => by rw [htables, hentries, hc.bindingCount_eq]⟩
  · refine ⟨fun s => ?_, fun s => ?_⟩
    · rw [htables]
      exact RoleTables.noEmptyList_bindAll (hc.noEmptyList s) _ _
    · rw [htables, hentries, RoleTables.bindingCount_bindAll, hc.bindingCount_eq, List.map_append,
        List.sum_append]
      simp [Entry.places]

theorem Stocked.sort (hc : c.Stocked) (p : ProfileSet) : (c.sort p).Stocked where
  noEmptyList s := by
    rw [tables_sort]
    exact (hc.noEmptyList s).mapLists fun _ => (perm_sortBySpecificity ..).length_eq
  bindingCount_eq s := by
    rw [tables_sort, RoleTables.sort, RoleTables.bindingCount,
      Grouping.length_pairs_mapLists fun _ => (perm_sortBySpecificity ..).length_eq]
    exact hc.bindingCount_eq s

theorem Composed.stocked {P : List String → Prop} (hc : c.Composed P) : c.Stocked :=
  hc.keeps stocked_empty (fun _ h d targets hc => hc.add h d targets) fun _ p hc => hc.sort p

/-- Streaming has tables only for the roles that it turns other roles into. -/
theorem Composed.table_eq_nil {P : List String → Prop} (hc : c.Composed P) {role : Role}
    (hrole : ∀ r : Role, r.inStreamMode ≠ role) : (c.tables .stream).table role = [] := by
  rw [RoleTables.table, List.map_eq_nil_iff, List.filter_eq_nil_iff]
  rintro ⟨⟨r, target⟩, bindings⟩ hgroup hsame
  obtain rfl : r = role := by simpa using hsame
  obtain ⟨b, hb⟩ := List.exists_mem_of_ne_nil _ (hc.stocked.noEmptyList .stream _ hgroup)
  have hget := Grouping.get_of_mem_groups (hc.coherent.nodup_keys .stream) hgroup
  have hlisted : b ∈ c.listed .stream r target := by
    rw [← (hc.coherent.perm_listed .stream r target).mem_iff, RoleTables.handlers, hget]
    exact hb
  obtain ⟨e, -, -, hplace⟩ := (mem_listed_iff ..).1 hlisted
  obtain ⟨declared, -, hfolded⟩ := Entry.exists_role_of_mem_places hplace
  exact hrole declared hfolded

/-- The classification comes from the empty one by additions and merges alone. What is merged may
have been sorted, since a merge takes over its entries and not its tables. -/
inductive Unsorted : Classification → Prop where
  | empty : Unsorted {}
  | add {c : Classification} (h : Handler) (d : Descriptor) (targets : List String) :
    Unsorted c → Unsorted (c.add h d targets)
  | merge {c other : Classification} : Unsorted c → Composed (fun _ => True) other →
    Unsorted (c.merge other)

theorem Unsorted.placed (hc : c.Unsorted) : c.Placed := by
  induction hc with
  | empty => exact placed_empty
  | add h d targets _ ih => exact ih.add h d targets
  | merge _ _ ih => exact (grows_merge _ _).placed ih

/-- However a classification is composed: no handler is recorded twice, and those with a role are
the classified ones. Under each role and target the tables list what the entries put there, and in
all as many bindings as the entries have roles times targets. No list is empty, and streaming has no
tables for the assembly roles. Without a sort the lists are in the order of the entries. -/
theorem Composed.tables_agree_with_entries (hc : c.Composed fun _ => True) :
    (c.ids.Nodup ∧ (∀ e ∈ c.entries, e.handler.capabilities.roles ≠ []) ∧
      ∀ b ∈ c.unclassified, b.handler.capabilities.roles = []) ∧
    (∀ s role target,
      ((c.tables s).handlers role target).Perm (c.bindingsAt s role target)) ∧
    (∀ s, (c.tables s).bindingCount =
      ((c.entries.filter fun e => e.handler.capabilities.supports s).map fun e =>
        e.handler.capabilities.roles.length * e.targets.length).sum) ∧
    (∀ s, ∀ group ∈ (c.tables s).groups, group.2 ≠ []) ∧
    ((c.tables .stream).table .assemblyPre = [] ∧ (c.tables .stream).table .assemblyPost = []) ∧
    (c.Unsorted → ∀ s role target,
      (c.tables s).handlers role target = c.bindingsAt s role target) := by
  have hcoherent := hc.coherent
  refine ⟨⟨hcoherent.nodup_ids, hcoherent.roles_ne_nil, hcoherent.roles_eq_nil⟩, ?_, ?_,
    hc.stocked.noEmptyList, ⟨?_, ?_⟩, ?_⟩
  · intro s role target
    rw [← listed_eq_bindingsAt]
    exact hcoherent.perm_listed s role target
  · intro s
    rw [hc.stocked.bindingCount_eq s, sum_length_places]
  · exact hc.table_eq_nil fun r => by cases r <;> decide
  · exact hc.table_eq_nil fun r => by cases r <;> decide
  · intro hunsorted s role target
    rw [hunsorted.placed.handlers_eq, listed_eq_bindingsAt]

/-- A serializer and a handler without a role, sorted. -/
def serializerAndPlain : Classification :=
  let serializer := (Capabilities.empty.addStrategy .stream).addRole .serialize
  ((add {} ⟨.given 1, "serializer", serializer⟩ { selector := "*" } ["p", "br"]).add
    ⟨.given 2, "plain", Capabilities.empty⟩ { selector := "p" } ["p"]).sort ⟨"html", []⟩

/-- The folded handler with its target given twice, and the others merged into it. -/
def foldedUnderRepeatedTarget : Classification :=
  (add {} foldedHandler { selector := "p" } ["p", "p"]).merge serializerAndPlain

/-- Two roles and two targets make four bindings, and the serializer adds its two. -/
theorem agreement_under_repeated_target :
    (foldedUnderRepeatedTarget.Composed fun _ => True) ∧ foldedUnderRepeatedTarget.Unsorted ∧
    (foldedUnderRepeatedTarget.tables .stream).bindingCount = 6 ∧
    (foldedUnderRepeatedTarget.tables .stream).handlers .processingPre "p" =
      List.replicate 4 ⟨foldedHandler, { selector := "p" }⟩ := by
  have hother : serializerAndPlain.Composed fun _ => True :=
    .sort _ (.add _ _ (.add _ _ .empty trivial) trivial)
  have hcomposed : foldedUnderRepeatedTarget.Composed fun _ => True :=
    .merge (.add _ _ .empty trivial) hother
  have hunsorted : foldedUnderRepeatedTarget.Unsorted := .merge (.add _ _ _ .empty) hother
  obtain ⟨-, -, hcount, -, -, hordered⟩ := Composed.tables_agree_with_entries hcomposed
  refine ⟨hcomposed, hunsorted, ?_, ?_⟩
  · rw [hcount]
    decide +kernel
  · rw [hordered hunsorted]
    decide +kernel

end Classification

end DeliveryPipeline
