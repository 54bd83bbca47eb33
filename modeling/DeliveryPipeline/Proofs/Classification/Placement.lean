import DeliveryPipeline.Classification
import DeliveryPipeline.Proofs.Grouping.Keys
import DeliveryPipeline.Proofs.Specificity.Order

/-!
# Placement in the role tables

A handler is only ever added to a classification. Adding one appends an entry and binds the handler
at its places, so the role tables list what the entries say, in the order of the entries, and
nothing else. Sorting the tables is the only thing that departs from that order.
-/
namespace DeliveryPipeline

/-- An entry as it stands in a role table. -/
def Entry.binding (e : Entry) : Binding :=
  ⟨e.handler, e.descriptor⟩

/-- The roles and targets under which an entry is bound for a strategy. -/
def Entry.places (e : Entry) (s : Strategy) : List (Role × String) :=
  e.handler.places s e.targets

/-- A handler that supports a strategy is bound under each of its roles, as the strategy takes them,
and each of its targets. -/
theorem Entry.mem_places_iff {e : Entry} {s : Strategy} (h : e.handler.capabilities.supports s)
    (role : Role) (target : String) :
    (role, target) ∈ e.places s ↔
      (∃ r ∈ e.handler.capabilities.roles, r.under s = role) ∧ target ∈ e.targets := by
  simp only [places, Handler.places, h, if_true, List.mem_flatMap, List.mem_map, Prod.mk.injEq]
  constructor
  · rintro ⟨r, hr, t, ht, hrole, rfl⟩
    exact ⟨⟨r, hr, hrole⟩, ht⟩
  · rintro ⟨⟨r, hr, hrole⟩, ht⟩
    exact ⟨r, hr, target, ht, hrole, rfl⟩

theorem Entry.supports_of_mem_places {e : Entry} {s : Strategy} {place : Role × String}
    (h : place ∈ e.places s) : e.handler.capabilities.supports s = true := by
  by_contra hnot
  rw [places, Handler.places, if_neg hnot] at h
  cases h

namespace RoleTables

theorem get_bindAll (t : RoleTables) (keys : List (Role × String)) (b : Binding)
    (key : Role × String) :
    (t.bindAll keys b).get key = t.get key ++ List.replicate (keys.count key) b := by
  unfold bindAll
  induction keys generalizing t with
  | nil => simp
  | cons k keys ih =>
    rw [List.foldl_cons, ih, Grouping.get_push]
    by_cases h : key = k
    · simp [h, List.replicate_succ]
    · simp [h, Ne.symm h]

theorem nodup_keys_bindAll {t : RoleTables} (h : t.keys.Nodup) (keys : List (Role × String))
    (b : Binding) : (t.bindAll keys b).keys.Nodup := by
  unfold bindAll
  induction keys generalizing t with
  | nil => exact h
  | cons k keys ih => exact ih (Grouping.nodup_keys_push h k b)

theorem handlers_sort (t : RoleTables) (p : ProfileSet) (role : Role) (target : String) :
    (t.sort p).handlers role target =
      sortBySpecificity p Binding.descriptor (t.handlers role target) :=
  Grouping.get_mapLists _ (by simp [sortBySpecificity]) t _

end RoleTables

namespace Classification

/-- What the entries list under a role and a target for a strategy, in their order. -/
def listed (c : Classification) (s : Strategy) (role : Role) (target : String) : List Binding :=
  c.entries.flatMap fun e => List.replicate ((e.places s).count (role, target)) e.binding

/-- A binding is listed under a role and a target when it is an entry that is bound there. -/
theorem mem_listed_iff (c : Classification) (s : Strategy) (role : Role) (target : String)
    (b : Binding) :
    b ∈ c.listed s role target ↔
      ∃ e ∈ c.entries, e.binding = b ∧ (role, target) ∈ e.places s := by
  simp only [listed, List.mem_flatMap, List.mem_replicate]
  constructor
  · rintro ⟨e, he, hcount, rfl⟩
    exact ⟨e, he, rfl, List.count_pos_iff.1 (Nat.pos_of_ne_zero hcount)⟩
  · rintro ⟨e, he, rfl, hplace⟩
    exact ⟨e, he, Nat.ne_of_gt (List.count_pos_iff.2 hplace), rfl⟩

/-- The role tables list what the entries say, in the order of the entries. -/
structure Placed (c : Classification) : Prop where
  nodup_keys : ∀ s, (c.tables s).keys.Nodup
  handlers_eq : ∀ s role target, (c.tables s).handlers role target = c.listed s role target

/-- The second classification comes from the first by adding handlers. -/
inductive Grows (c : Classification) : Classification → Prop where
  | refl : Grows c c
  | add {c' : Classification} (h : Handler) (d : Descriptor) (targets : List String) :
    Grows c c' → Grows c (c'.add h d targets)

/-- Adding a handler either leaves entries and tables alone, or appends an entry and binds the
handler at its places. -/
theorem add_cases (c : Classification) (h : Handler) (d : Descriptor) (targets : List String) :
    ((c.add h d targets).entries = c.entries ∧ ∀ s, (c.add h d targets).tables s = c.tables s) ∨
    ((c.add h d targets).entries = c.entries ++ [⟨h, d, targets⟩] ∧
      ∀ s, (c.add h d targets).tables s =
        (c.tables s).bindAll (h.places s targets) ⟨h, d⟩) := by
  unfold add
  split
  next => exact .inl ⟨rfl, fun _ => rfl⟩
  next =>
    split
    next => exact .inl ⟨rfl, fun s => by cases s <;> rfl⟩
    next => exact .inr ⟨rfl, fun s => by cases s <;> rfl⟩

theorem add_of_contains {c : Classification} {h : Handler} (hknown : c.contains h.id = true)
    (d : Descriptor) (targets : List String) : c.add h d targets = c :=
  if_pos hknown

/-- A handler that is not recorded is bound at its places, of which it has none without a role. -/
theorem tables_add_of_new {c : Classification} {h : Handler} (hnew : c.contains h.id = false)
    (d : Descriptor) (targets : List String) (s : Strategy) :
    (c.add h d targets).tables s = (c.tables s).bindAll (h.places s targets) ⟨h, d⟩ := by
  rw [add, hnew]
  cases hroles : h.capabilities.roles with
  | nil =>
    have hplaces : h.places s targets = [] := by simp [Handler.places, hroles]
    rw [hplaces]
    cases s <;> rfl
  | cons => cases s <;> rfl

theorem placed_empty : Placed {} where
  nodup_keys s := by cases s <;> exact Grouping.nodup_keys_empty
  handlers_eq s _ _ := by cases s <;> rfl

/-- An addition puts the same bindings behind those of a role table and behind those that the
entries list. -/
theorem exists_added (c : Classification) (h : Handler) (d : Descriptor) (targets : List String)
    (s : Strategy) (role : Role) (target : String) :
    ∃ added, ((c.add h d targets).tables s).handlers role target =
        (c.tables s).handlers role target ++ added ∧
      (c.add h d targets).listed s role target = c.listed s role target ++ added := by
  rcases add_cases c h d targets with ⟨hentries, htables⟩ | ⟨hentries, htables⟩
  · exact ⟨[], by rw [htables, List.append_nil], by rw [listed, hentries, List.append_nil, listed]⟩
  · refine ⟨List.replicate ((h.places s targets).count (role, target)) ⟨h, d⟩, ?_, ?_⟩
    · rw [htables, RoleTables.handlers, RoleTables.get_bindAll, RoleTables.handlers]
    · rw [listed, hentries, List.flatMap_append, List.flatMap_singleton, listed]
      rfl

theorem nodup_keys_add {c : Classification} (hc : ∀ s, (c.tables s).keys.Nodup) (h : Handler)
    (d : Descriptor) (targets : List String) (s : Strategy) :
    ((c.add h d targets).tables s).keys.Nodup := by
  rcases add_cases c h d targets with ⟨-, htables⟩ | ⟨-, htables⟩
  · rw [htables]
    exact hc s
  · rw [htables]
    exact RoleTables.nodup_keys_bindAll (hc s) _ _

/-- What a role table of the first classification lists, that of the second lists there too. -/
def Retains (c c' : Classification) : Prop :=
  ∀ s role target b, b ∈ (c.tables s).handlers role target →
    b ∈ (c'.tables s).handlers role target

theorem Retains.trans {c c' c'' : Classification} (h : c.Retains c') (h' : c'.Retains c'') :
    c.Retains c'' :=
  fun s role target b hb => h' s role target b (h s role target b hb)

theorem retains_add (c : Classification) (h : Handler) (d : Descriptor) (targets : List String) :
    c.Retains (c.add h d targets) := by
  intro s role target b hb
  obtain ⟨added, htables, -⟩ := exists_added c h d targets s role target
  rw [htables]
  exact List.mem_append_left added hb

/-- A handler that is not recorded is listed at all its places once it has been added. -/
theorem mem_handlers_add {c : Classification} {h : Handler} (hnew : c.contains h.id = false)
    (d : Descriptor) {targets : List String} {s : Strategy} {role : Role} {target : String}
    (hplace : (role, target) ∈ h.places s targets) :
    ⟨h, d⟩ ∈ ((c.add h d targets).tables s).handlers role target := by
  rw [tables_add_of_new hnew, RoleTables.handlers, RoleTables.get_bindAll, List.mem_append,
    List.mem_replicate]
  exact .inr ⟨Nat.ne_of_gt (List.count_pos_iff.2 hplace), rfl⟩

/-- Adding a handler keeps the tables in step with the entries. -/
theorem Placed.add {c : Classification} (hc : c.Placed) (h : Handler) (d : Descriptor)
    (targets : List String) : (c.add h d targets).Placed where
  nodup_keys := nodup_keys_add hc.nodup_keys h d targets
  handlers_eq s role target := by
    obtain ⟨added, htables, hlisted⟩ := exists_added c h d targets s role target
    rw [htables, hlisted, hc.handlers_eq]

@[simp] theorem tables_sort (c : Classification) (p : ProfileSet) (s : Strategy) :
    (c.sort p).tables s = (c.tables s).sort p := by
  cases s <;> rfl

/-- Sorting leaves the entries alone, and each list stands sorted for what the entries list. -/
theorem Placed.stablySorted {c : Classification} (hc : c.Placed) (p : ProfileSet) (s : Strategy)
    (role : Role) (target : String) :
    StablySorted p Binding.descriptor ((c.sort p).listed s role target)
      (((c.sort p).tables s).handlers role target) := by
  rw [tables_sort, RoleTables.handlers_sort, hc.handlers_eq]
  exact stablySorted_sortBySpecificity p Binding.descriptor _

theorem Placed.nodup_keys_sort {c : Classification} (hc : c.Placed) (p : ProfileSet)
    (s : Strategy) : ((c.sort p).tables s).keys.Nodup := by
  rw [tables_sort, RoleTables.sort, Grouping.keys_mapLists]
  exact hc.nodup_keys s

theorem Grows.trans {c c' c'' : Classification} (h : c.Grows c') (h' : c'.Grows c'') :
    c.Grows c'' := by
  induction h' with
  | refl => exact h
  | add handler d targets _ ih => exact ih.add handler d targets

theorem grows_add (c : Classification) (h : Handler) (d : Descriptor) (targets : List String) :
    c.Grows (c.add h d targets) :=
  Grows.refl.add h d targets

/-- What every addition keeps holds however a classification grows. -/
theorem Grows.keeps {I : Classification → Prop} {c c' : Classification} (h : c.Grows c') (hc : I c)
    (hadd : ∀ c h d targets, I c → I (c.add h d targets)) : I c' := by
  induction h with
  | refl => exact hc
  | add handler d targets _ ih => exact hadd _ handler d targets ih

theorem Grows.retains {c c' : Classification} (h : c.Grows c') : c.Retains c' := by
  apply h.keeps
  · exact fun _ _ _ _ hb => hb
  · intro c' handler d targets hretains
    exact hretains.trans (retains_add c' handler d targets)

/-- However a classification grows, its tables stay in step with its entries. -/
theorem Grows.placed {c c' : Classification} (h : c.Grows c') (hc : c.Placed) : c'.Placed :=
  h.keeps hc fun _ handler d targets hc => hc.add handler d targets

/-- The recorded handlers with their targets, in the order in which a merge adds them. -/
def recorded (c : Classification) : List Entry :=
  c.entries ++ c.unclassified.map fun b => ⟨b.handler, b.descriptor, []⟩

theorem merge_eq_foldl (c other : Classification) :
    c.merge other =
      other.recorded.foldl (fun c e => c.add e.handler e.descriptor e.targets) c := by
  rw [recorded, List.foldl_append, List.foldl_map, merge]

theorem grows_merge (c other : Classification) : c.Grows (c.merge other) := by
  rw [merge_eq_foldl]
  induction other.recorded generalizing c with
  | nil => exact .refl
  | cons e later ih =>
    rw [List.foldl_cons]
    exact (grows_add c e.handler e.descriptor e.targets).trans (ih _)

/-- A merge keeps the entries, and puts some of the handlers of the other classification behind
them, in their order. -/
theorem entries_merge (c other : Classification) :
    ∃ added, added.Sublist other.recorded ∧ (c.merge other).entries = c.entries ++ added := by
  rw [merge_eq_foldl]
  induction other.recorded generalizing c with
  | nil => exact ⟨[], .slnil, by simp⟩
  | cons e later ih =>
    rw [List.foldl_cons]
    obtain ⟨added, hsub, hadded⟩ := ih (c.add e.handler e.descriptor e.targets)
    rcases add_cases c e.handler e.descriptor e.targets with ⟨hentries, -⟩ | ⟨hentries, -⟩
    · exact ⟨added, hsub.cons e, by rw [hadded, hentries]⟩
    · exact ⟨e :: added, hsub.cons_cons e, by rw [hadded, hentries]; simp⟩

end Classification

end DeliveryPipeline
