import DeliveryPipeline.Proofs.DescriptorTable.Listing

/-!
# What is listed under the reserved target

The reserved target has a selector of its own, but targets are told apart by their names alone. So a
path that ends in the reserved name reaches the target too, and so does a category when the schema
declares an element of that name. A built table has nothing else there.
-/
namespace DeliveryPipeline

/-- The selector reaches the reserved target without naming it: as the last step of a path, or as an
element that the schema puts into the category. -/
def Selector.Intrudes (schema : Option Schema) : Selector → Prop
  | .globals | .wildcard => False
  | .category name => ∃ c s,
    Category.parse name = .ok c ∧ schema = some s ∧ globalTarget ∈ s.classify c
  | .element path => path.getLast? = some globalTarget

/-- A descriptor has the reserved target exactly if it names it or intrudes. -/
theorem exists_globalTarget_iff (p : ProfileSet) (schema : Option Schema) (d : Descriptor) :
    (∃ targets, targetsFor p schema d = .ok targets ∧ globalTarget ∈ targets) ↔
      d.parsedSelector = .globals ∨ d.parsedSelector.Intrudes schema := by
  have hwildcard : globalTarget ≠ wildcardName := by decide
  unfold targetsFor
  cases hselector : d.parsedSelector with
  | globals => simp [Selector.target?]
  | wildcard => simp [Selector.target?, Selector.Intrudes, hwildcard]
  | element path => simp [Selector.target?, Selector.Intrudes]
  | category name =>
    simp only [Error.bind_eq_ok_iff, Selector.Intrudes, reduceCtorEq, false_or]
    constructor
    · rintro ⟨targets, ⟨c, hc, htargets⟩, hglobal⟩
      cases schema with
      | none => cases htargets
      | some s =>
        cases htargets
        exact ⟨c, s, hc, rfl, hglobal⟩
    · rintro ⟨c, s, hc, rfl, hglobal⟩
      exact ⟨s.classify c, ⟨c, hc, rfl⟩, hglobal⟩

namespace DescriptorTable

variable {p : ProfileSet} {schema : Option Schema} {ds : List Descriptor} {table : DescriptorTable}

/-- The descriptors under the reserved target of a built table are those that name it and those that
intrude, and every global parameter comes from one of them. So it holds only descriptors that name
it exactly if none of the given ones intrudes. -/
theorem mem_globals_of_build (h : build p schema ds = .ok table) :
    (∀ d, d ∈ table.get globalTarget ↔
      d ∈ ds ∧ (d.parsedSelector = .globals ∨ d.parsedSelector.Intrudes schema)) ∧
    ((∀ d ∈ table.get globalTarget, d.parsedSelector = .globals) ↔
      ∀ d ∈ ds, ¬ d.parsedSelector.Intrudes schema) ∧
    ∀ name value, table.globalParameter? name = some value → ∃ d ∈ ds,
      (d.parsedSelector = .globals ∨ d.parsedSelector.Intrudes schema) ∧
        d.parameter? name = some value := by
  have hlisted (d : Descriptor) : d ∈ table.get globalTarget ↔
      d ∈ ds ∧ (d.parsedSelector = .globals ∨ d.parsedSelector.Intrudes schema) := by
    rw [mem_get_build h, exists_globalTarget_iff]
  refine ⟨hlisted, ⟨?_, ?_⟩, ?_⟩
  · intro honly d hd hintrudes
    have hglobals := honly d ((hlisted d).2 ⟨hd, .inr hintrudes⟩)
    rw [hglobals] at hintrudes
    exact hintrudes
  · intro hnone d hd
    obtain ⟨hmem, hglobals | hintrudes⟩ := (hlisted d).1 hd
    · exact hglobals
    · exact absurd hintrudes (hnone d hmem)
  · intro name value hvalue
    obtain ⟨d, hd, hparameter⟩ := List.exists_of_findSome?_eq_some hvalue
    obtain ⟨hmem, hreaches⟩ := (hlisted d).1 hd
    exact ⟨d, hmem, hreaches, hparameter⟩

/-- A path that ends in the reserved name and requests a strategy. -/
def pathIntruder : Descriptor :=
  { selector := "p/global-parameters", parameters := .ofList [("stream.filter.type", "tree")] }

/-- A category that asks for no sort of the handlers. -/
def categoryIntruder : Descriptor :=
  { selector := "macro:empty", parameters := .ofList [("handlers.sort", "false")] }

/-- A schema that declares an element with the reserved name. -/
def intrusiveSchema : Option Schema :=
  (Dtd.parse "<!ELEMENT global-parameters EMPTY>").toOption.map Dtd.schema

/-- The table of both intruders. -/
def intrudedTable : DescriptorTable :=
  ⟨[(globalTarget, [pathIntruder, categoryIntruder])]⟩

theorem build_intrudedTable :
    build ⟨"html", []⟩ intrusiveSchema [pathIntruder, categoryIntruder] = .ok intrudedTable := by
  decide +kernel

/-- The intruders are what the table of both has under the reserved target. -/
theorem mem_globals_of_intruders :
    build ⟨"html", []⟩ intrusiveSchema [pathIntruder, categoryIntruder] = .ok intrudedTable ∧
    categoryIntruder.parsedSelector.Intrudes intrusiveSchema ∧
    ∃ d ∈ [pathIntruder, categoryIntruder], d.parsedSelector.Intrudes intrusiveSchema ∧
      d.parameter? "stream.filter.type" = some "tree" := by
  have hglobals := mem_globals_of_build build_intrudedTable
  refine ⟨build_intrudedTable, ?_, ?_⟩
  · have hcategory : categoryIntruder ∈ intrudedTable.get globalTarget := by decide +kernel
    have hnot : categoryIntruder.parsedSelector ≠ .globals := by decide +kernel
    exact ((hglobals.1 categoryIntruder).1 hcategory).2.resolve_left hnot
  · have hnone : ∀ d ∈ [pathIntruder, categoryIntruder], d.parsedSelector ≠ .globals := by
      decide +kernel
    obtain ⟨d, hd, hreaches, hvalue⟩ := hglobals.2.2 "stream.filter.type" "tree" (by decide +kernel)
    exact ⟨d, hd, hreaches.resolve_left (hnone d hd), hvalue⟩

/-- A path and a category reach the reserved target and set global parameters. -/
theorem reserved_target_intruded :
    build ⟨"html", []⟩ intrusiveSchema [pathIntruder, categoryIntruder] = .ok intrudedTable ∧
    pathIntruder ∈ intrudedTable.get globalTarget ∧
    pathIntruder.parsedSelector = .element ["p", globalTarget] ∧
    categoryIntruder ∈ intrudedTable.get globalTarget ∧
    categoryIntruder.parsedSelector = .category "empty" ∧
    intrudedTable.globalParameter? "stream.filter.type" = some "tree" ∧
    intrudedTable.globalParameter? "handlers.sort" = some "false" :=
  ⟨build_intrudedTable, by decide +kernel⟩

end DescriptorTable

end DeliveryPipeline
