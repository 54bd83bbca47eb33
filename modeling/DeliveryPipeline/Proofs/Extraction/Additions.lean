import DeliveryPipeline.Proofs.DescriptorTable.Order
import DeliveryPipeline.Proofs.Extraction.Origins

/-!
# What extraction adds to the table

Items are visited depth first: what a handler yields is visited with all that comes of it before the
items that were waiting. On the way a yielded descriptor without a handler is listed in the table
behind what is there, and nothing else touches the table. So the final table is the initial one with
the yielded descriptors that got no handler, in the order of their visits.
-/
namespace DeliveryPipeline.Workshop

variable {w : Workshop} {t : DescriptorTable} {x y : Extraction} {v : Visit}

/-- The visits go through the items one after another, and below each item through what it yields
before they come to the next one. The states are those before and after the visits. -/
inductive DepthFirst (w : Workshop) :
    List WorkItem → Extraction → List Visit → Extraction → Prop where
  | nil {x : Extraction} : DepthFirst w [] x [] x
  | cons {n : Nat} {item : WorkItem} {items later : List WorkItem} {below after : List Visit}
    {x x' y z : Extraction} : w.visit n item x = .ok (x', items) →
    DepthFirst w items x' below y → DepthFirst w later y after z →
    DepthFirst w (item :: later) x (⟨item, x⟩ :: (below ++ after)) z

/-- The visits to two lists of items in turn are those to the first list and those to the second. -/
theorem DepthFirst.split {items later : List WorkItem} {visits : List Visit} {x z : Extraction}
    (h : w.DepthFirst (items ++ later) x visits z) :
    ∃ below y after, visits = below ++ after ∧ w.DepthFirst items x below y ∧
      w.DepthFirst later y after z := by
  induction items generalizing x visits with
  | nil => exact ⟨[], x, visits, rfl, .nil, h⟩
  | cons item items ih =>
    cases h with
    | cons hvisit hbelow hrest =>
      obtain ⟨rest, y, after, rfl, hitems, hlater⟩ := ih hrest
      exact ⟨_, y, after, by simp, .cons hvisit hbelow hitems, hlater⟩

/-- An extraction that succeeds goes through the bindings of its table depth first. -/
theorem depthFirst_of_extract (h : w.extract t = .ok x) :
    w.DepthFirst (initialItems t) { table := t } (w.visits t) x := by
  apply proceed_induction (P := fun pending visits y => w.DepthFirst pending y visits x) h .nil
  intro n item later y y' items visits hvisit hvisits
  obtain ⟨below, z, after, rfl, hbelow, hafter⟩ := hvisits.split
  exact .cons hvisit hbelow hafter

/-- The yielded descriptors that get no handler, in the order of their visits. -/
def unhandled (w : Workshop) (t : DescriptorTable) : List Descriptor :=
  ((w.visits t).filter w.keepsAt).map fun v => v.item.descriptor

theorem targetsFor_of_yielded (hv : v ∈ w.visits t) (hyielded : v.item.yielded = true) :
    targetsFor w.profiles w.schema v.item.descriptor = .ok v.item.targets := by
  have haimed := aimed_of_visits hv
  rwa [WorkItem.Aimed, if_pos hyielded] at haimed

/-- The final table lists in addition what got no handler. -/
theorem table_eq_listAll (h : w.extract t = .ok x) :
    x.table = t.listAll w.profiles w.schema (w.unhandled t) := by
  rw [table_of_extract h, unhandled, DescriptorTable.listAll, List.foldl_map]
  apply List.foldl_ext
  intro table v hv
  obtain ⟨hv, hkeeps⟩ := List.mem_filter.1 hv
  rw [targetsOf, targetsFor_of_yielded hv (Bool.and_eq_true_iff.1 hkeeps).1]
  rfl

theorem keys_table_of_extract (h : w.extract t = .ok x) :
    x.table.keys = t.keys ++
      (((w.unhandled t).flatMap (targetsOf w.profiles w.schema)).removeAll t.keys).eraseDups := by
  rw [table_eq_listAll h, DescriptorTable.keys_listAll, foldl_pushNew]

theorem get_table_of_extract (h : w.extract t = .ok x) (target : String) :
    x.table.get target = t.get target ++ (((w.unhandled t).filter fun d =>
      target ∈ targetsOf w.profiles w.schema d).removeAll (t.get target)).eraseDups := by
  rw [table_eq_listAll h, DescriptorTable.get_listAll, foldl_pushNew]

theorem nodup_get_table_of_extract (h : w.extract t = .ok x) {target : String}
    (ht : (t.get target).Nodup) : (x.table.get target).Nodup := by
  rw [table_eq_listAll h, DescriptorTable.get_listAll]
  exact List.foldlRecOn _ pushNew ht fun _ hnodup d _ => nodup_pushNew hnodup d

/-- A visit that makes a handler leaves the table alone, and so does one to a binding. -/
theorem table_of_idle_visit {n : Nat} {item : WorkItem} {items : List WorkItem}
    (hidle : item.yielded = false ∨ (w.madeAt ⟨item, x⟩).isSome = true)
    (hvisit : w.visit n item x = .ok (y, items)) : y.table = x.table := by
  have hkeeps : w.keepsAt ⟨item, x⟩ = false := by
    rcases hidle with hinitial | hmade
    · simp [keepsAt, hinitial]
    · simp [keepsAt, hmade]
  rw [table_of_visit hvisit, hkeeps]
  rfl

/-- When extraction succeeds it has visited the bindings of its table and all that was yielded depth
first, each yielded descriptor with its own targets. The final table has the targets of the initial
one in their places, and each list begins as it did. Behind come the yielded descriptors that got no
handler, in the order of the visits, each under its targets unless it is listed there. No other
visit touches the table, and no list gets a repeat. -/
theorem table_extended_of_extract (h : w.extract t = .ok x) :
    w.DepthFirst (initialItems t) { table := t } (w.visits t) x ∧
    (∀ v ∈ w.visits t, v.item.yielded = true →
      targetsFor w.profiles w.schema v.item.descriptor = .ok v.item.targets) ∧
    x.table.keys = t.keys ++
      (((w.unhandled t).flatMap (targetsOf w.profiles w.schema)).removeAll t.keys).eraseDups ∧
    (∀ target, x.table.get target = t.get target ++ (((w.unhandled t).filter fun d =>
      target ∈ targetsOf w.profiles w.schema d).removeAll (t.get target)).eraseDups) ∧
    (∀ v ∈ w.visits t, v.item.yielded = false ∨ (w.madeAt v).isSome = true →
      ∀ n y items, w.visit n v.item v.before = .ok (y, items) → y.table = v.before.table) ∧
    ∀ target, (t.get target).Nodup → (x.table.get target).Nodup :=
  ⟨depthFirst_of_extract h, fun _ => targetsFor_of_yielded, keys_table_of_extract h,
    get_table_of_extract h, fun _ _ hidle _ _ _ => table_of_idle_visit hidle,
    fun _ => nodup_get_table_of_extract h⟩

/-- A workshop in which nested handlers yield style sheets, for which it has no factory. -/
def styledWorkshop : Workshop where
  factories := FactoryRegistry.builtin.register "styled" {
    name := "styled"
    create := fun fresh d => .ok {
      handler := ⟨fresh, "styled", { Capabilities.empty with selfExpanding := true }⟩
      yields :=
        if d.selector = "p" then [{ selector := "b", declaredType := some "styled" },
          { selector := "p", resource := some "outer.css" }]
        else [{ selector := "p", resource := some "inner.css" },
          { selector := "em", resource := some "inner.css" },
          { selector := "i", resource := some "own.css" }] } }
  profiles := ⟨"html", []⟩

/-- A handler that yields style sheets, and a style sheet of which one is a repeat. -/
def styledTable : DescriptorTable :=
  .ofPairs [("p", { selector := "p", declaredType := some "styled" }),
    ("i", { selector := "i", resource := some "own.css" })]

/-- The style sheets of the nested handler come first. -/
theorem sheets_listed_depth_first :
    ∃ x, styledWorkshop.extract styledTable = .ok x ∧ x.table.keys = ["p", "i", "em"] ∧
      (x.table.get "p").map Descriptor.resource = [none, some "inner.css", some "outer.css"] ∧
      (x.table.get "i").map Descriptor.resource = [some "own.css"] := by
  have hok : (styledWorkshop.extract styledTable).toOption.isSome = true := by decide +kernel
  obtain ⟨x, hextract⟩ := Error.isSome_toOption_iff.1 hok
  obtain ⟨-, -, hkeys, hget, -, -⟩ := table_extended_of_extract hextract
  refine ⟨x, hextract, ?_, ?_, ?_⟩
  · rw [hkeys]
    decide +kernel
  · rw [hget]
    decide +kernel
  · rw [hget]
    decide +kernel

end DeliveryPipeline.Workshop
