import DeliveryPipeline.Proofs.Classification.Composition
import DeliveryPipeline.Proofs.DescriptorTable.Listing
import DeliveryPipeline.Proofs.Extraction.Growth
import DeliveryPipeline.Proofs.Extraction.Origins
import DeliveryPipeline.Resolution

/-!
# The entries that an extraction leaves behind

Without registrations, each entry of an extraction comes from a visit: the one that makes its
handler first. The entry has the targets of the visited item. A binding of a table always has one,
but a yielded descriptor whose selector names no target has none, and its handler is classified all
the same. Such an entry counts when the strategy is resolved, though no role table lists it.
-/
namespace DeliveryPipeline

/-- The selector names no target: it holds separators alone, or it is that of a category into which
the schema puts no element. -/
def Descriptor.NamesNoTarget (d : Descriptor) (schema : Option Schema) : Prop :=
  Selector.OnlySeparators d.selector ∨
    ∃ name c s, d.parsedSelector = .category name ∧ Category.parse name = .ok c ∧
      schema = some s ∧ s.classify c = []

/-- The descriptors that resolve to no target are those whose selectors name none. -/
theorem targetsFor_eq_nil_iff {p : ProfileSet} {schema : Option Schema} {d : Descriptor} :
    targetsFor p schema d = .ok [] ↔ d.NamesNoTarget schema := by
  unfold Descriptor.NamesNoTarget
  by_cases hcategory : ∃ name, d.parsedSelector = .category name
  · obtain ⟨name, hname⟩ := hcategory
    have hsteps : ¬ Selector.OnlySeparators d.selector := by
      rw [← Selector.parse_eq_element_nil_iff]
      intro hpath
      cases hname.symm.trans hpath
    simp only [targetsFor, hname, hsteps, false_or, Selector.category.injEq]
    rw [Error.bind_eq_ok_iff]
    constructor
    · rintro ⟨c, hc, h⟩
      cases schema with
      | none => cases h
      | some s => exact ⟨name, c, s, rfl, hc, rfl, Except.ok.inj h⟩
    · rintro ⟨_, c, s, rfl, hc, rfl, h⟩
      exact ⟨c, hc, congrArg Except.ok h⟩
  · have hother : ∀ name, d.parsedSelector ≠ .category name := not_exists.1 hcategory
    rw [targetsFor_eq_toList hother, ← Selector.target?_eq_none_iff hother, Except.ok.injEq,
      Option.toList_eq_nil_iff]
    refine (or_iff_left ?_).symm
    rintro ⟨name, -, -, hname, -⟩
    exact hother name hname

theorem Classification.entries_add (c : Classification) (h : Handler) (d : Descriptor)
    (targets : List String) :
    (c.add h d targets).entries =
      c.entries ++ if c.classifies h then [⟨h, d, targets⟩] else [] := by
  unfold add classifies
  cases c.contains h.id <;> cases h.capabilities.roles.isEmpty <;> simp

namespace Workshop

variable {w : Workshop} {t : DescriptorTable} {x : Extraction}

/-- The entry that a visit adds: that of a handler with a role that was not recorded before. -/
def entryAt (w : Workshop) (v : Visit) : Option Entry :=
  ((w.madeAt v).filter fun made => v.before.classification.classifies made.handler).map fun made =>
    ⟨made.handler, v.item.descriptor, v.item.targets⟩

theorem targets_of_entryAt {v : Visit} {e : Entry} (h : w.entryAt v = some e) :
    e.targets = v.item.targets := by
  obtain ⟨made, -, rfl⟩ := Option.map_eq_some_iff.1 h
  rfl

/-- A visit at which nothing is registered adds its entry and no other. -/
theorem entries_of_visit (hnone : w.factories.RegistersNone) {n : Nat} {item : WorkItem}
    {x' : Extraction} {items : List WorkItem} (h : w.visit n item x = .ok (x', items)) :
    x'.classification.entries =
      x.classification.entries ++ (w.entryAt ⟨item, x⟩).toList := by
  rw [classification_of_visit h, classifiedAt, entryAt]
  cases hmade : w.madeAt ⟨item, x⟩ with
  | none => simp
  | some made =>
    obtain ⟨t, f, hf, hcreate⟩ := makes_of_madeAt hmade
    have hself := hnone t f hf _ _ made hcreate
    simp only [hself, Bool.false_eq_true, if_false]
    rw [Classification.entries_add, Option.filter_some]
    split <;> rfl

/-- Without registrations, the entries are those that the visits add, in their order. -/
theorem entries_of_extract (hnone : w.factories.RegistersNone) (h : w.extract t = .ok x) :
    x.classification.entries = (w.visits t).filterMap w.entryAt := by
  have hrun := proceed_induction (P := fun _ visits y =>
    x.classification.entries = y.classification.entries ++ visits.filterMap w.entryAt) h (by simp)
  apply hrun
  intro n item later y y' items visits hvisit ih
  rw [ih, entries_of_visit hnone hvisit, List.append_assoc, List.filterMap_cons]
  cases w.entryAt ⟨item, y⟩ <;> rfl

/-- The items without targets are yielded, and their selectors name none. -/
theorem targets_eq_nil_iff {v : Visit} (hv : v ∈ w.visits t) :
    v.item.targets = [] ↔
      v.item.yielded = true ∧ v.item.descriptor.NamesNoTarget w.schema := by
  rcases origin_of_visits hv with hinitial | ⟨u, -, hyields⟩
  · obtain ⟨hyielded, -, target, htarget, -⟩ := isBinding_of_initialItems hinitial
    simp [hyielded, List.ne_nil_of_mem htarget]
  · obtain ⟨hyielded, htargets⟩ := aimed_of_yields hyields
    rw [← targetsFor_eq_nil_iff (p := w.profiles), htargets, Except.ok.injEq]
    exact (and_iff_right hyielded).symm

/-- A descriptor that a built table lists names a target. -/
theorem not_namesNoTarget_of_declared {ds : List Descriptor}
    (hbuild : DescriptorTable.build w.profiles w.schema ds = .ok t) {v : Visit}
    (hv : v ∈ w.visits t) (hdeclared : v.item.yielded = false) :
    v.item.descriptor ∈ ds ∧ ¬ v.item.descriptor.NamesNoTarget w.schema := by
  have hinitial : v.item.IsBinding t := by
    rcases origin_of_visits hv with hinitial | ⟨u, -, hyields⟩
    · exact isBinding_of_initialItems hinitial
    · rw [(aimed_of_yields hyields).1] at hdeclared
      cases hdeclared
  obtain ⟨target, htarget, -⟩ := hinitial.exists_target
  rw [hinitial.targets_eq, Grouping.mem_keysOf_iff (DescriptorTable.nodup_keys_build hbuild),
    DescriptorTable.mem_get_build hbuild] at htarget
  obtain ⟨hd, targets, htargets, hmem⟩ := htarget
  refine ⟨hd, fun hno => ?_⟩
  rw [← targetsFor_eq_nil_iff (p := w.profiles), htargets] at hno
  cases Except.ok.inj hno
  cases hmem

/-- Without registrations, a successful extraction has the entries that its visits add. Those
without targets are the entries of yielded descriptors whose selectors name none. A declared
descriptor whose selector names none is never visited. Every entry counts for the strategies that it
supports, but only one with a target is listed in their role tables. -/
theorem untargeted_entries_of_extract (w : Workshop) (t : DescriptorTable) (x : Extraction)
    (hnone : w.factories.RegistersNone) (h : w.extract t = .ok x) :
    x.classification.entries = (w.visits t).filterMap w.entryAt ∧
    (∀ v ∈ w.visits t, ∀ e, w.entryAt v = some e →
      (e.targets = [] ↔ v.item.yielded = true ∧ v.item.descriptor.NamesNoTarget w.schema)) ∧
    (∀ ds, DescriptorTable.build w.profiles w.schema ds = .ok t →
      ∀ v ∈ w.visits t, v.item.yielded = false →
        v.item.descriptor ∈ ds ∧ ¬ v.item.descriptor.NamesNoTarget w.schema) ∧
    ∀ e ∈ x.classification.entries, ∀ s,
      (∃ role target, e.binding ∈ (x.classification.tables s).handlers role target) ↔
        e.handler.capabilities.supports s = true ∧ e.targets ≠ [] := by
  refine ⟨entries_of_extract hnone h, ?_, ?_, ?_⟩
  · intro v hv e he
    rw [targets_of_entryAt he]
    exact targets_eq_nil_iff hv
  · intro ds hbuild v hv hdeclared
    exact not_namesNoTarget_of_declared hbuild hv hdeclared
  · intro e he s
    have hgrows := grows_of_extract hnone.onlyAdds h
    exact (hgrows.coherent Classification.coherent_empty).exists_mem_handlers_iff he s

/-- Tree serializers for a slash, and for the elements that the schema says are empty. -/
def strayDescriptors : List Descriptor :=
  ["/", "macro:empty"].map fun selector => {
    selector, declaredType := some declaredType
    parameters := .ofList [("modes", "tree"), ("roles", "serialize")] }

/-- A streaming serializer for an element. -/
def streamingDescriptor : Descriptor where
  selector := "b"
  declaredType := some declaredType
  parameters := .ofList [("modes", "stream"), ("roles", "serialize")]

/-- A factory of handlers that yield the stray descriptors. -/
def strayFactory : Factory where
  name := "stray"
  create fresh _ := .ok {
    handler := ⟨fresh, "expander", { Capabilities.empty with selfExpanding := true }⟩
    yields := strayDescriptors }

/-- No element of the schema is in any category. -/
def strayWorkshop : Workshop where
  factories := FactoryRegistry.builtin.register "stray" strayFactory
  profiles := ⟨"html", []⟩
  schema := some ⟨fun _ => []⟩

/-- The streaming serializer, and a descriptor whose handler yields the stray ones. -/
def strayTable : DescriptorTable :=
  .ofPairs [("b", streamingDescriptor), ("p", { selector := "p", declaredType := some "stray" })]

theorem registersNone_strayWorkshop : strayWorkshop.factories.RegistersNone := by
  apply FactoryRegistry.registersNone_builtin.register
  intro fresh d made hmade
  cases hmade
  rfl

/-- A stray handler has an entry, but stands in no role table. -/
theorem stray_handler_listed_nowhere :
    ∃ x, strayWorkshop.extract strayTable = .ok x ∧
      ∃ v ∈ strayWorkshop.visits strayTable, v.item.descriptor ∈ strayDescriptors ∧
        ∃ e ∈ x.classification.entries, strayWorkshop.entryAt v = some e ∧
          ∀ s role target, e.binding ∉ (x.classification.tables s).handlers role target := by
  have hok : (strayWorkshop.extract strayTable).toOption.isSome = true := by decide +kernel
  have hstray : ∃ v ∈ strayWorkshop.visits strayTable, v.item.descriptor ∈ strayDescriptors ∧
      v.item.targets = [] ∧ (strayWorkshop.entryAt v).isSome = true := by
    decide +kernel
  obtain ⟨x, hextract⟩ := Error.isSome_toOption_iff.1 hok
  obtain ⟨v, hv, hdescriptor, htargets, hentry⟩ := hstray
  obtain ⟨e, hentry⟩ := Option.isSome_iff_exists.1 hentry
  obtain ⟨hentries, -, -, hlisted⟩ := untargeted_entries_of_extract strayWorkshop strayTable x
    registersNone_strayWorkshop hextract
  have he : e ∈ x.classification.entries := by
    rw [hentries]
    exact List.mem_filterMap.2 ⟨v, hv, hentry⟩
  refine ⟨x, hextract, v, hv, hdescriptor, e, he, hentry, fun s role target hmem => ?_⟩
  exact ((hlisted e he s).1 ⟨role, target, hmem⟩).2 ((targets_of_entryAt hentry).trans htargets)

/-- The stray handlers count: with them no strategy is left, while the same descriptors in the table
that is built leave streaming. -/
theorem stray_handlers_counted :
    strayWorkshop.factories.RegistersNone ∧
    (∃ x, strayWorkshop.extract strayTable = .ok x ∧
      (∃ e ∈ x.classification.entries, e.targets = []) ∧
      ∀ s, x.classification.resolve none ≠ .ok s) ∧
    ∃ table, DescriptorTable.build strayWorkshop.profiles strayWorkshop.schema
        (streamingDescriptor :: strayDescriptors) = .ok table ∧
      ∃ x, strayWorkshop.extract table = .ok x ∧ x.classification.resolve none = .ok .stream := by
  refine ⟨registersNone_strayWorkshop, ?_, ?_⟩
  · have hyielded : (strayWorkshop.extract strayTable).toOption.map (fun x =>
        (x.classification.entries.map Entry.targets,
          (x.classification.resolve none).toOption)) = some ([["b"], [], []], none) := by
      decide +kernel
    obtain ⟨x, hextract, hx⟩ := Error.map_toOption_eq_some_iff.1 hyielded
    obtain ⟨htargets, hresolve⟩ := Prod.mk.inj hx
    have hempty : [] ∈ x.classification.entries.map Entry.targets := by simp [htargets]
    refine ⟨x, hextract, List.mem_map.1 hempty, fun s hs => ?_⟩
    rw [hs] at hresolve
    cases hresolve
  · have hdeclared : (DescriptorTable.build strayWorkshop.profiles strayWorkshop.schema
        (streamingDescriptor :: strayDescriptors)).toOption.map (fun table =>
          (strayWorkshop.extract table).toOption.map fun x =>
            (x.classification.resolve none).toOption) = some (some (some .stream)) := by
      decide +kernel
    obtain ⟨table, hbuild, hextract⟩ := Error.map_toOption_eq_some_iff.1 hdeclared
    obtain ⟨x, hextract, hresolve⟩ := Error.map_toOption_eq_some_iff.1 hextract
    refine ⟨table, hbuild, x, hextract, ?_⟩
    cases hchosen : x.classification.resolve none with
    | error e =>
      rw [hchosen] at hresolve
      cases hresolve
    | ok s =>
      rw [hchosen] at hresolve
      cases hresolve
      rfl

end Workshop

end DeliveryPipeline
