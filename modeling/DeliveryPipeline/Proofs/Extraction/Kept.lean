import DeliveryPipeline.Proofs.DescriptorTable.Listing
import DeliveryPipeline.Proofs.Extraction.Origins

/-!
# Which descriptors are kept in the table

Descriptors enter the table when it is built, and yielded ones without a handler while it is
extracted from. Both ways list a descriptor under the target that its selector names. So the only
ones that get lost have a selector that is no category and names no target either.
-/
namespace DeliveryPipeline

/-- A built table lists a descriptor that is not of a category under exactly one target, unless its
selector holds separators alone: then the table does not list it. -/
theorem DescriptorTable.listed_of_build {p : ProfileSet} {schema : Option Schema}
    {ds : List Descriptor} {table : DescriptorTable} (h : build p schema ds = .ok table)
    {d : Descriptor} (hd : d ∈ ds) (hselector : ∀ name, d.parsedSelector ≠ .category name) :
    (Selector.OnlySeparators d.selector → ∀ target, d ∉ table.get target) ∧
      (¬ Selector.OnlySeparators d.selector → ∃! target, d ∈ table.get target) := by
  have htarget : d.parsedSelector.target? = none ↔ Selector.OnlySeparators d.selector :=
    Selector.target?_eq_none_iff hselector
  simp only [mem_get_build_iff_target h hd hselector, ← htarget]
  constructor
  · intro hnone target
    simp [hnone]
  · intro hsome
    obtain ⟨target, hsome⟩ := Option.ne_none_iff_exists'.1 hsome
    exact ⟨target, hsome, fun other hother => Option.some.inj (hother.symm.trans hsome)⟩

namespace Workshop

variable {w : Workshop} {t : DescriptorTable} {x : Extraction} {v : Visit}

theorem mem_get_foldl_insertAll {d : Descriptor} {key : String} (visits : List Visit)
    (t : DescriptorTable) :
    d ∈ (visits.foldl (fun t v => t.insertAll v.item.targets v.item.descriptor) t).get key ↔
      d ∈ t.get key ∨ ∃ v ∈ visits, v.item.descriptor = d ∧ key ∈ v.item.targets := by
  induction visits generalizing t with
  | nil => simp
  | cons v visits ih =>
    rw [List.foldl_cons, ih, DescriptorTable.mem_get_insertAll]
    grind

/-- Extraction lists the yielded descriptors without a handler in the table, and nothing else. -/
theorem mem_get_of_extract (h : w.extract t = .ok x) {d : Descriptor} {key : String} :
    d ∈ x.table.get key ↔ d ∈ t.get key ∨
      ∃ v ∈ w.visits t, w.keepsAt v = true ∧ v.item.descriptor = d ∧ key ∈ v.item.targets := by
  rw [table_of_extract h, mem_get_foldl_insertAll]
  simp only [List.mem_filter, and_assoc]

theorem targets_of_yielded (hv : v ∈ w.visits t) (hyielded : v.item.yielded = true)
    (hselector : ∀ name, v.item.descriptor.parsedSelector ≠ .category name) :
    v.item.targets = v.item.descriptor.parsedSelector.target?.toList := by
  have haimed := aimed_of_visits hv
  rw [WorkItem.Aimed, if_pos hyielded, targetsFor_eq_toList hselector] at haimed
  exact (Except.ok.inj haimed).symm

/-- A yielded descriptor without a handler, and not of a category, is listed under the target that
its selector names, apart from where it was listed before. -/
theorem mem_get_of_yielded (h : w.extract t = .ok x) (hv : v ∈ w.visits t)
    (hyielded : v.item.yielded = true) (hnone : w.madeAt v = none)
    (hselector : ∀ name, v.item.descriptor.parsedSelector ≠ .category name) {key : String} :
    v.item.descriptor ∈ x.table.get key ↔
      v.item.descriptor ∈ t.get key ∨ v.item.descriptor.parsedSelector.target? = some key := by
  rw [mem_get_of_extract h]
  refine or_congr_right ⟨?_, fun hkey => ⟨v, hv, ?_, rfl, ?_⟩⟩
  · -- the same descriptor may have been kept at another visit, but then under the same target
    rintro ⟨u, hu, hkeeps, hsame, hkey⟩
    have huyielded : u.item.yielded = true := (Bool.and_eq_true_iff.1 hkeeps).1
    rw [targets_of_yielded hu huyielded (hsame ▸ hselector), hsame, Option.mem_toList] at hkey
    exact hkey
  · simp [keepsAt, hyielded, hnone]
  · simp [targets_of_yielded hv hyielded hselector, hkey]

/-- A yielded descriptor without a handler, and not of a category, is listed in the final table,
unless its selector holds separators alone: then it is listed where it was before. -/
theorem listed_of_yielded (h : w.extract t = .ok x) (hv : v ∈ w.visits t)
    (hyielded : v.item.yielded = true) (hnone : w.madeAt v = none)
    (hselector : ∀ name, v.item.descriptor.parsedSelector ≠ .category name) :
    (Selector.OnlySeparators v.item.descriptor.selector → ∀ target,
      v.item.descriptor ∈ x.table.get target ↔ v.item.descriptor ∈ t.get target) ∧
      (¬ Selector.OnlySeparators v.item.descriptor.selector →
        ∃ target, v.item.descriptor ∈ x.table.get target) := by
  have htarget : v.item.descriptor.parsedSelector.target? = none ↔
      Selector.OnlySeparators v.item.descriptor.selector :=
    Selector.target?_eq_none_iff hselector
  simp only [mem_get_of_yielded h hv hyielded hnone hselector, ← htarget]
  constructor
  · intro hnone target
    simp [hnone]
  · intro hsome
    obtain ⟨target, hsome⟩ := Option.ne_none_iff_exists'.1 hsome
    exact ⟨target, .inr hsome⟩

end Workshop

/-- Apart from categories, a descriptor is lost exactly if its selector holds separators alone. All
others are listed under exactly one target when a table is built. When they are yielded, they are
visited, and listed if no handler is made. -/
theorem lost_iff_only_separators (p : ProfileSet) (schema : Option Schema) (ds : List Descriptor)
    (w : Workshop) (t : DescriptorTable) :
    (∀ table, DescriptorTable.build p schema ds = .ok table →
      ∀ d ∈ ds, (∀ name, d.parsedSelector ≠ .category name) →
        (Selector.OnlySeparators d.selector → ∀ target, d ∉ table.get target) ∧
        (¬ Selector.OnlySeparators d.selector → ∃! target, d ∈ table.get target)) ∧
    ∀ x, w.extract t = .ok x →
      (∀ u ∈ w.visits t, ∀ item, w.Yields u item → ∃ v ∈ w.visits t, v.item = item) ∧
      ∀ v ∈ w.visits t, v.item.yielded = true → w.madeAt v = none →
        (∀ name, v.item.descriptor.parsedSelector ≠ .category name) →
        (Selector.OnlySeparators v.item.descriptor.selector → ∀ target,
          v.item.descriptor ∈ x.table.get target ↔ v.item.descriptor ∈ t.get target) ∧
        (¬ Selector.OnlySeparators v.item.descriptor.selector →
          ∃ target, v.item.descriptor ∈ x.table.get target) := by
  constructor
  · intro table h d hd hselector
    exact DescriptorTable.listed_of_build h hd hselector
  · intro x h
    refine ⟨fun u hu item hitem => Workshop.visited_of_yields h hu hitem, ?_⟩
    intro v hv hyielded hnone hselector
    exact Workshop.listed_of_yielded h hv hyielded hnone hselector

/-- A style sheet whose selector is a slash. -/
def slashDescriptor : Descriptor := { selector := "/", resource := some "style.xsl" }

/-- The slash is no category, but the table of this descriptor is empty. -/
theorem slash_lost :
    slashDescriptor.parsedSelector = .element [] ∧
      ∃ table, DescriptorTable.build ⟨"html", []⟩ none [slashDescriptor] = .ok table ∧
        ∀ target, slashDescriptor ∉ table.get target :=
  ⟨by decide +kernel, Grouping.empty, by decide +kernel, by simp⟩

end DeliveryPipeline
