import DeliveryPipeline.Extraction

/-!
# The visits of an extraction

Extraction is a sequence of visits. What a visit does is said once here, part by part, and what a
whole extraction does follows from it: the created handlers, the events and the table are gathered
from the visits in their order. The visits are listed for every extraction, whether it succeeds or
not.
-/
namespace DeliveryPipeline

/-- A visit of an extraction: the item, and what had been done before. -/
structure Visit where
  item : WorkItem
  before : Extraction

theorem mem_iff_of_mapM_ok {α β : Type} {f : α → Except Error β} {xs : List α} {ys : List β}
    (h : xs.mapM f = .ok ys) {y : β} : y ∈ ys ↔ ∃ x ∈ xs, f x = .ok y := by
  induction xs generalizing ys with
  | nil => cases h; simp
  | cons first rest ih =>
    rw [List.mapM_cons, Error.bind_eq_ok_iff] at h
    obtain ⟨z, hz, hrest⟩ := h
    rw [Error.bind_eq_ok_iff] at hrest
    obtain ⟨zs, hzs, hys⟩ := hrest
    cases hys
    simp [hz, ih hzs, eq_comm]

namespace Workshop

variable {w : Workshop}

/-- What the factories make of the item of a visit. -/
def attemptAt (w : Workshop) (v : Visit) : Except Error Attempt :=
  w.factories.attempt (.created v.before.created.length) v.item.descriptor

/-- The handler that is made at a visit, if one is made. -/
def madeAt (w : Workshop) (v : Visit) : Option Creation :=
  (w.attemptAt v).toOption.bind Attempt.made

/-- The events that the factories leave behind at a visit. -/
def eventsAt (w : Workshop) (v : Visit) : List Event :=
  (w.attemptAt v).toOption.elim [] Attempt.events

/-- What a visit makes of the classification: the new handler is added, and may register others. -/
def classifiedAt (w : Workshop) (v : Visit) : Classification :=
  match w.madeAt v with
  | none => v.before.classification
  | some made =>
    let classified := v.before.classification.add made.handler v.item.descriptor v.item.targets
    if made.handler.capabilities.selfRegistering then made.register classified else classified

/-- At a visit an item is listed in the table: a yielded item for which no handler is made. -/
def keepsAt (w : Workshop) (v : Visit) : Bool :=
  v.item.yielded && (w.madeAt v).isNone

/-- A handler that is made at a visit yields an item. -/
def Yields (w : Workshop) (v : Visit) (item : WorkItem) : Prop :=
  ∃ made, w.madeAt v = some made ∧ made.handler.capabilities.selfExpanding = true ∧
    item.descriptor ∈ made.yields ∧ w.yieldedItem item.descriptor = .ok item

/-- The visits from a point on at which the given items are pending, the next one first. An error
ends them. -/
def visitsFrom (w : Workshop) (expansions : Nat) (pending : List WorkItem) (x : Extraction) :
    List Visit :=
  match pending with
  | [] => []
  | item :: later =>
    match _visited : w.visit expansions item x with
    | .error _ => [⟨item, x⟩]
    | .ok (x', items) =>
      ⟨item, x⟩ :: w.visitsFrom (expansions + items.length) (items ++ later) x'
termination_by w.maxExpansions - expansions + pending.length
decreasing_by
  have := length_of_visit _visited
  simp only [List.length_append, List.length_cons]
  omega

/-- The visits of the extraction from a table, in order. -/
def visits (w : Workshop) (t : DescriptorTable) : List Visit :=
  w.visitsFrom 0 (initialItems t) { table := t }

/-- Extraction from a point on at which the given items are pending, the next one first. -/
def proceed (w : Workshop) (expansions : Nat) (pending : List WorkItem) (x : Extraction) :
    Except Error Extraction :=
  w.drive expansions pending.reverse.toArray x

theorem extract_eq_proceed (w : Workshop) (t : DescriptorTable) :
    w.extract t = w.proceed 0 (initialItems t) { table := t } := rfl

@[simp] theorem proceed_nil (w : Workshop) (expansions : Nat) (x : Extraction) :
    w.proceed expansions [] x = .ok x := by
  rw [proceed, drive]
  split
  next => rfl
  next item htop => simp at htop

theorem proceed_cons (w : Workshop) (expansions : Nat) (item : WorkItem) (later : List WorkItem)
    (x : Extraction) : w.proceed expansions (item :: later) x =
      w.visit expansions item x >>= fun visited =>
        w.proceed (expansions + visited.2.length) (visited.2 ++ later) visited.1 := by
  rw [proceed, drive]
  split
  next htop => simp at htop
  next top htop =>
    obtain rfl : item = top := by simpa using htop
    split
    next e he => rw [he]; rfl
    next x' items hvisit => simp [hvisit, bind, Except.bind, proceed]

section Step

variable {expansions : Nat} {item : WorkItem} {x x' : Extraction} {items : List WorkItem}

/-- A visit that succeeds makes no handler, or enrolls the one that it makes and lets it yield and
register. -/
theorem visit_cases (h : w.visit expansions item x = .ok (x', items)) :
    let v : Visit := ⟨item, x⟩
    let logged := x.log (w.eventsAt v)
    (w.madeAt v = none ∧ items = [] ∧ x' = if item.yielded then logged.keep item else logged) ∨
    ∃ made, w.madeAt v = some made ∧ w.expand expansions item.descriptor made = .ok items ∧
      x' = (logged.enroll item made).letRegister made := by
  obtain ⟨attempt, hattempt, hsettle⟩ := Error.bind_eq_ok_iff.1 h
  have hat : w.attemptAt ⟨item, x⟩ = .ok attempt := hattempt
  simp only [madeAt, eventsAt, hat, Except.toOption, Option.bind_some, Option.elim_some]
  cases hmade : attempt.made with
  | none =>
    rw [hmade] at hsettle
    cases hsettle
    exact .inl ⟨rfl, rfl, rfl⟩
  | some made =>
    rw [hmade] at hsettle
    obtain ⟨items', hexpand, hitems⟩ := Error.map_eq_ok_iff.1 hsettle
    cases hitems
    exact .inr ⟨made, rfl, hexpand, rfl⟩

theorem created_of_visit (h : w.visit expansions item x = .ok (x', items)) :
    x'.created = x.created ++ (w.madeAt ⟨item, x⟩).toList := by
  rcases visit_cases h with ⟨hnone, -, rfl⟩ | ⟨made, hmade, -, rfl⟩
  · rw [hnone]
    split <;> simp [Extraction.keep, Extraction.log]
  · rw [hmade]
    unfold Extraction.letRegister
    split <;> rfl

theorem events_of_visit (h : w.visit expansions item x = .ok (x', items)) :
    x'.events = x.events ++ w.eventsAt ⟨item, x⟩ := by
  rcases visit_cases h with ⟨-, -, rfl⟩ | ⟨made, -, -, rfl⟩
  · split <;> rfl
  · unfold Extraction.letRegister
    split <;> rfl

theorem table_of_visit (h : w.visit expansions item x = .ok (x', items)) :
    x'.table = if w.keepsAt ⟨item, x⟩ then x.table.insertAll item.targets item.descriptor
      else x.table := by
  rcases visit_cases h with ⟨hnone, -, rfl⟩ | ⟨made, hmade, -, rfl⟩
  · cases hyielded : item.yielded <;>
      simp [keepsAt, hnone, hyielded, Extraction.keep, Extraction.log]
  · simp only [keepsAt, hmade, Option.isNone_some, Bool.and_false]
    unfold Extraction.letRegister
    split <;> rfl

theorem classification_of_visit (h : w.visit expansions item x = .ok (x', items)) :
    x'.classification = w.classifiedAt ⟨item, x⟩ := by
  rcases visit_cases h with ⟨hnone, -, rfl⟩ | ⟨made, hmade, -, rfl⟩
  · rw [classifiedAt, hnone]
    split <;> rfl
  · rw [classifiedAt, hmade]
    unfold Extraction.letRegister
    split <;> simp_all [Extraction.enroll, Extraction.log]

theorem yieldedItem_eq_ok_iff {d : Descriptor} {i : WorkItem} :
    w.yieldedItem d = .ok i ↔
      ∃ targets, targetsFor w.profiles w.schema d = .ok targets ∧ i = ⟨d, targets, true⟩ := by
  rw [yieldedItem, Error.bind_eq_ok_iff]
  simp [pure, Except.pure, eq_comm]

theorem mem_of_expand {source : Descriptor} {made : Creation}
    (h : w.expand expansions source made = .ok items) {i : WorkItem} :
    i ∈ items ↔ made.handler.capabilities.selfExpanding = true ∧ i.descriptor ∈ made.yields ∧
      w.yieldedItem i.descriptor = .ok i := by
  unfold expand at h
  split at h
  next hself =>
    split at h
    next => cases h
    next =>
      rw [mem_iff_of_mapM_ok h]
      constructor
      · rintro ⟨d, hd, hi⟩
        obtain ⟨targets, -, rfl⟩ := yieldedItem_eq_ok_iff.1 hi
        exact ⟨hself, hd, hi⟩
      · rintro ⟨-, hd, hi⟩
        exact ⟨i.descriptor, hd, hi⟩
  next hself =>
    cases h
    simp [hself]

/-- The items that become pending at a visit are those that its handler yields. -/
theorem mem_items_iff (h : w.visit expansions item x = .ok (x', items)) {i : WorkItem} :
    i ∈ items ↔ w.Yields ⟨item, x⟩ i := by
  rcases visit_cases h with ⟨hnone, rfl, -⟩ | ⟨made, hmade, hexpand, -⟩
  · simp [Yields, hnone]
  · rw [mem_of_expand hexpand]
    simp [Yields, hmade]

end Step

section Run

variable {expansions : Nat} {pending : List WorkItem} {x y : Extraction}

/-- What holds at the end of an extraction that succeeds, and before a visit whenever it holds after
it, holds from the start. What is said may depend on how many descriptors have been yielded. -/
theorem proceed_induction_counted {P : Nat → List WorkItem → List Visit → Extraction → Prop}
    (h : w.proceed expansions pending x = .ok y) (done : ∀ n, P n [] [] y)
    (visited : ∀ {n item later x x' items visits}, w.visit n item x = .ok (x', items) →
      w.proceed (n + items.length) (items ++ later) x' = .ok y →
        P (n + items.length) (items ++ later) visits x' →
          P n (item :: later) (⟨item, x⟩ :: visits) x) :
    P expansions pending (w.visitsFrom expansions pending x) x := by
  fun_induction visitsFrom w expansions pending x with
  | case1 expansions x =>
    rw [proceed_nil] at h
    cases h
    exact done expansions
  | case2 expansions x item later e hvisit =>
    rw [proceed_cons, hvisit] at h
    cases h
  | case3 expansions x item later x' items hvisit ih =>
    rw [proceed_cons, hvisit] at h
    exact visited hvisit h (ih h)

/-- The same for what does not depend on the number of yielded descriptors. -/
theorem proceed_induction {P : List WorkItem → List Visit → Extraction → Prop}
    (h : w.proceed expansions pending x = .ok y) (done : P [] [] y)
    (visited : ∀ {n item later x x' items visits}, w.visit n item x = .ok (x', items) →
      P (items ++ later) visits x' → P (item :: later) (⟨item, x⟩ :: visits) x) :
    P pending (w.visitsFrom expansions pending x) x :=
  proceed_induction_counted (P := fun _ => P) h (fun _ => done) fun hvisit _ => visited hvisit

variable {t : DescriptorTable}

/-- The created handlers are those that the visits make. -/
theorem created_of_extract (h : w.extract t = .ok y) :
    y.created = (w.visits t).filterMap w.madeAt := by
  have hrun := proceed_induction (P := fun _ visits x =>
    y.created = x.created ++ visits.filterMap w.madeAt) h (by simp)
  apply hrun
  intro n item later x x' items visits hvisit ih
  rw [ih, created_of_visit hvisit, List.append_assoc, List.filterMap_cons]
  cases w.madeAt ⟨item, x⟩ <;> rfl

/-- The events are those that the visits leave behind. -/
theorem events_of_extract (h : w.extract t = .ok y) :
    y.events = (w.visits t).flatMap w.eventsAt := by
  have hrun := proceed_induction (P := fun _ visits x =>
    y.events = x.events ++ visits.flatMap w.eventsAt) h (by simp)
  apply hrun
  intro n item later x x' items visits hvisit ih
  rw [ih, events_of_visit hvisit, List.append_assoc, List.flatMap_cons]

/-- The table is the one that extraction began with, and what the visits list in it. -/
theorem table_of_extract (h : w.extract t = .ok y) :
    y.table = ((w.visits t).filter w.keepsAt).foldl
      (fun t v => t.insertAll v.item.targets v.item.descriptor) t := by
  apply proceed_induction (P := fun _ visits x => y.table = (visits.filter w.keepsAt).foldl
    (fun t v => t.insertAll v.item.targets v.item.descriptor) x.table) h rfl
  intro n item later x x' items visits hvisit ih
  rw [ih, table_of_visit hvisit, List.filter_cons]
  split <;> rfl

/-- An extraction that succeeds visits all that is pending and all that its handlers yield. -/
theorem visited_of_proceed (h : w.proceed expansions pending x = .ok y) {i : WorkItem}
    (hi : i ∈ pending ∨ ∃ u ∈ w.visitsFrom expansions pending x, w.Yields u i) :
    ∃ v ∈ w.visitsFrom expansions pending x, v.item = i := by
  revert i
  apply proceed_induction (P := fun pending visits _ => ∀ {i},
    (i ∈ pending ∨ ∃ u ∈ visits, w.Yields u i) → ∃ v ∈ visits, v.item = i) h (by simp)
  intro n item later x x' items visits hvisit ih i hi
  -- the item on top is visited now, and what it yields becomes pending, so the rest is left to the
  -- visits that follow
  have hrest (hi : i ∈ items ++ later ∨ ∃ u ∈ visits, w.Yields u i) :
      ∃ v ∈ Visit.mk item x :: visits, v.item = i := by
    obtain ⟨v, hv, hitem⟩ := ih hi
    exact ⟨v, List.mem_cons_of_mem _ hv, hitem⟩
  rcases hi with hi | ⟨u, hu, hi⟩
  · rcases List.mem_cons.1 hi with rfl | hi
    · exact ⟨_, List.mem_cons_self, rfl⟩
    · exact hrest (.inl (List.mem_append_right items hi))
  · rcases List.mem_cons.1 hu with rfl | hu
    · exact hrest (.inl (List.mem_append_left later ((mem_items_iff hvisit).2 hi)))
    · exact hrest (.inr ⟨u, hu, hi⟩)

theorem visited_of_yields (h : w.extract t = .ok y) {u : Visit} (hu : u ∈ w.visits t)
    {i : WorkItem} (hi : w.Yields u i) : ∃ v ∈ w.visits t, v.item = i :=
  visited_of_proceed h (.inr ⟨u, hu, hi⟩)

/-- What a visit brings about and later visits keep holds at the end, for each of the visits. -/
theorem holds_of_visited {Q : Visit → Extraction → Prop}
    (brought : ∀ {u n x' items}, u ∈ w.visits t → w.visit n u.item u.before = .ok (x', items) →
      Q u x')
    (kept : ∀ {v u n x' items}, u ∈ w.visits t → w.visit n u.item u.before = .ok (x', items) →
      Q v u.before → Q v x')
    (h : w.extract t = .ok y) {v : Visit} (hv : v ∈ w.visits t) : Q v y := by
  have hrun := proceed_induction (P := fun _ visits x => (∀ u ∈ visits, u ∈ w.visits t) →
    (∀ v, Q v x → Q v y) ∧ ∀ v ∈ visits, Q v y) h fun _ => ⟨fun _ hv => hv, by simp⟩
  refine (hrun ?_ fun _ hu => hu).2 v hv
  intro n item later x x' items visits hvisit ih hall
  obtain ⟨hu, hvisits⟩ := List.forall_mem_cons.1 hall
  obtain ⟨ihkept, ih⟩ := ih hvisits
  refine ⟨fun v hv => ihkept v (kept hu hvisit hv), fun v hv => ?_⟩
  rcases List.mem_cons.1 hv with rfl | hv
  · exact ihkept _ (brought hu hvisit)
  · exact ih v hv

end Run

/-- Whatever is visited, in an extraction that succeeds or fails, was pending in the beginning or
has been yielded at a visit. -/
theorem origin_of_visitsFrom {expansions : Nat} {pending : List WorkItem} {x : Extraction}
    {v : Visit} (hv : v ∈ w.visitsFrom expansions pending x) :
    v.item ∈ pending ∨ ∃ u ∈ w.visitsFrom expansions pending x, w.Yields u v.item := by
  fun_induction visitsFrom w expansions pending x with
  | case1 => cases hv
  | case2 expansions x item later e hvisit =>
    obtain rfl := List.mem_singleton.1 hv
    exact .inl List.mem_cons_self
  | case3 expansions x item later x' items hvisit ih =>
    rcases List.mem_cons.1 hv with rfl | hv
    · exact .inl List.mem_cons_self
    · rcases ih hv with hpending | ⟨u, hu, hyields⟩
      · rcases List.mem_append.1 hpending with hitem | hlater
        · exact .inr ⟨_, List.mem_cons_self, (mem_items_iff hvisit).1 hitem⟩
        · exact .inl (List.mem_cons_of_mem _ hlater)
      · exact .inr ⟨u, List.mem_cons_of_mem _ hu, hyields⟩

theorem origin_of_visits {t : DescriptorTable} {v : Visit} (hv : v ∈ w.visits t) :
    v.item ∈ initialItems t ∨ ∃ u ∈ w.visits t, w.Yields u v.item :=
  origin_of_visitsFrom hv

end Workshop

end DeliveryPipeline
