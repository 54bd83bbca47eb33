import DeliveryPipeline.Proofs.DescriptorTable.Listing
import DeliveryPipeline.Proofs.FirstOccurrences
import DeliveryPipeline.Proofs.Grouping.Pairs

/-!
# The order of a built table

A table is built by going through the descriptors twice: first through those that are not of a
category, then through the categories. Each descriptor is listed under its targets as it comes,
unless it is listed there. So the targets stand in the order in which they first come up, and the
list under a target is what the two passes bring to it, without repeats. A sort of the lists changes
only their order. The build fails at the first descriptor whose targets cannot be resolved.
-/
namespace DeliveryPipeline

def Selector.isCategory : Selector → Bool
  | category _ => true
  | _ => false

theorem Selector.isCategory_eq_false_iff {s : Selector} :
    s.isCategory = false ↔ ∀ name, s ≠ .category name := by
  cases s <;> simp [isCategory]

theorem Selector.target?_of_isCategory {s : Selector} (h : s.isCategory = true) :
    s.target? = none := by
  cases s with
  | category name => rfl
  | globals => cases h
  | wildcard => cases h
  | element path => cases h

/-- The targets of a descriptor, none if they cannot be resolved. -/
def targetsOf (p : ProfileSet) (schema : Option Schema) (d : Descriptor) : List String :=
  (targetsFor p schema d).toOption.getD []

/-- The error that the targets of a descriptor cannot be resolved with. -/
def targetFault? (p : ProfileSet) (schema : Option Schema) (d : Descriptor) : Option Error :=
  match targetsFor p schema d with
  | .ok _ => none
  | .error e => some e

/-- Descriptors in the order in which a table is built: the categories come last. -/
def categoriesLast (ds : List Descriptor) : List Descriptor :=
  (ds.filter fun d => !d.parsedSelector.isCategory) ++
    ds.filter fun d => d.parsedSelector.isCategory

/-- The descriptors with a target, as the two passes bring them to it, without repeats. -/
def listing (p : ProfileSet) (schema : Option Schema) (ds : List Descriptor) (target : String) :
    List Descriptor :=
  ((categoriesLast ds).filter fun d => target ∈ targetsOf p schema d).eraseDups

/-- The targets as the two passes bring them up, without repeats. -/
def targetOrder (p : ProfileSet) (schema : Option Schema) (ds : List Descriptor) : List String :=
  ((categoriesLast ds).flatMap (targetsOf p schema)).eraseDups

/-- The global parameter that asks for sorted lists, in its first value among the descriptors that
name the reserved target. -/
def asksForSorting (ds : List Descriptor) : Bool :=
  let globals := ds.filter fun d => d.parsedSelector.target? = some globalTarget
  (globals.findSome? fun d => d.parameter? sortResourcesParameter).any fun value =>
    Text.sameIgnoringCase (Text.trim value) "true"

section Targets

variable {p : ProfileSet} {schema : Option Schema} {d : Descriptor} {target : String}

theorem mem_targetsOf_iff : target ∈ targetsOf p schema d ↔
    ∃ targets, targetsFor p schema d = .ok targets ∧ target ∈ targets := by
  unfold targetsOf
  cases targetsFor p schema d <;> simp [Except.toOption]

theorem targetFault?_eq_none_iff :
    targetFault? p schema d = none ↔ ∃ targets, targetsFor p schema d = .ok targets := by
  unfold targetFault?
  cases targetsFor p schema d <;> simp

theorem targetFault?_eq_some_iff {e : Error} :
    targetFault? p schema d = some e ↔ targetsFor p schema d = .error e := by
  unfold targetFault?
  cases targetsFor p schema d <;> simp

theorem targetsOf_of_not_isCategory (h : d.parsedSelector.isCategory = false) :
    targetsOf p schema d = d.parsedSelector.target?.toList := by
  rw [targetsOf, targetsFor_eq_toList (Selector.isCategory_eq_false_iff.1 h)]
  rfl

theorem targetFault?_of_not_isCategory (h : d.parsedSelector.isCategory = false) :
    targetFault? p schema d = none := by
  rw [targetFault?_eq_none_iff, targetsFor_eq_toList (Selector.isCategory_eq_false_iff.1 h)]
  exact ⟨_, rfl⟩

end Targets

namespace DescriptorTable

variable {p : ProfileSet} {schema : Option Schema} {ds : List Descriptor} {table : DescriptorTable}

/-- List descriptors under their targets, one after another. -/
def listAll (p : ProfileSet) (schema : Option Schema) (t : DescriptorTable) (ds : List Descriptor) :
    DescriptorTable :=
  ds.foldl (fun t d => t.insertAll (targetsOf p schema d) d) t

section Insertion

variable {t : DescriptorTable} {d : Descriptor} {key target : String} {targets : List String}

theorem keys_insert (t : DescriptorTable) (target : String) (d : Descriptor) :
    (t.insert target d).keys = pushNew t.keys target := by
  unfold insert contains pushNew
  split
  next hlisted => rw [if_pos (Grouping.mem_keys_of_mem_get (of_decide_eq_true hlisted))]
  next => exact Grouping.keys_push t target d

theorem get_insert (t : DescriptorTable) (target key : String) (d : Descriptor) :
    (t.insert target d).get key = if key = target then pushNew (t.get key) d else t.get key := by
  unfold insert contains pushNew
  split
  next hlisted =>
    by_cases hkey : key = target
    · subst hkey
      simp [of_decide_eq_true hlisted]
    · simp [hkey]
  next hnew =>
    rw [Grouping.get_push]
    by_cases hkey : key = target
    · subst hkey
      simpa using hnew
    · simp [hkey]

/-- New targets come behind those that a table has. -/
theorem keys_insertAll (t : DescriptorTable) (targets : List String) (d : Descriptor) :
    (t.insertAll targets d).keys = targets.foldl pushNew t.keys := by
  unfold insertAll
  induction targets generalizing t with
  | nil => rfl
  | cons target targets ih => rw [List.foldl_cons, List.foldl_cons, ih, keys_insert]

/-- The descriptor comes behind those that are listed under its targets, unless it is listed. -/
theorem get_insertAll (t : DescriptorTable) (targets : List String) (key : String)
    (d : Descriptor) : (t.insertAll targets d).get key =
      if key ∈ targets then pushNew (t.get key) d else t.get key := by
  have hidle (xs : List Descriptor) : pushNew (pushNew xs d) d = pushNew xs d := by
    by_cases h : d ∈ xs <;> simp [pushNew, h]
  unfold insertAll
  induction targets generalizing t with
  | nil => simp
  | cons target targets ih =>
    rw [List.foldl_cons, ih, get_insert]
    by_cases hkey : key = target <;> by_cases hlater : key ∈ targets <;>
      simp [hkey, hlater, hidle]

theorem keys_listAll (t : DescriptorTable) (ds : List Descriptor) :
    (t.listAll p schema ds).keys = (ds.flatMap (targetsOf p schema)).foldl pushNew t.keys := by
  unfold listAll
  induction ds generalizing t with
  | nil => rfl
  | cons d ds ih => rw [List.foldl_cons, ih, keys_insertAll, List.flatMap_cons, List.foldl_append]

theorem get_listAll (t : DescriptorTable) (ds : List Descriptor) (key : String) :
    (t.listAll p schema ds).get key =
      (ds.filter fun d => key ∈ targetsOf p schema d).foldl pushNew (t.get key) := by
  unfold listAll
  induction ds generalizing t with
  | nil => rfl
  | cons d ds ih =>
    rw [List.foldl_cons, ih, get_insertAll, List.filter_cons]
    by_cases hkey : key ∈ targetsOf p schema d <;> simp [hkey]

theorem get_listAll_empty (key : String) (ds : List Descriptor) :
    (listAll p schema Grouping.empty ds).get key =
      (ds.filter fun d => key ∈ targetsOf p schema d).eraseDups := by
  rw [get_listAll, Grouping.get_empty, foldl_pushNew_nil]

end Insertion

section Building

theorem insertLiteral_eq (p : ProfileSet) (schema : Option Schema) (t : DescriptorTable)
    (d : Descriptor) : t.insertLiteral d =
      if (!d.parsedSelector.isCategory) = true then t.insertAll (targetsOf p schema d) d
      else t := by
  unfold insertLiteral
  cases hcategory : d.parsedSelector.isCategory with
  | true => simp [Selector.target?_of_isCategory hcategory]
  | false =>
    rw [targetsOf_of_not_isCategory hcategory]
    cases d.parsedSelector.target? <;> rfl

/-- The first pass lists the descriptors that are not of a category. -/
theorem ofLiterals_eq (p : ProfileSet) (schema : Option Schema) (ds : List Descriptor) :
    ofLiterals ds = listAll p schema Grouping.empty
      (ds.filter fun d => !d.parsedSelector.isCategory) := by
  have hstep := funext₂ (insertLiteral_eq p schema)
  rw [ofLiterals, hstep, listAll, List.foldl_filter]

/-- The second pass lists the categories, and fails at the first that cannot be resolved. -/
theorem foldlM_expand (t : DescriptorTable) (ds : List Descriptor) :
    ds.foldlM (expand p schema) t = match ds.findSome? (targetFault? p schema) with
      | some e => .error e
      | none => .ok (listAll p schema t ds) := by
  induction ds generalizing t with
  | nil => rfl
  | cons d ds ih =>
    rw [List.foldlM_cons, List.findSome?_cons, expand, targetFault?]
    cases htargets : targetsFor p schema d with
    | error e => rfl
    | ok targets =>
      have hof : targetsOf p schema d = targets := by rw [targetsOf, htargets]; rfl
      rw [listAll, List.foldl_cons, hof]
      exact ih (t.insertAll targets d)

/-- What is held back without being of a category has no target, so nothing comes of it. -/
theorem expand_heldBack_eq (p : ProfileSet) (schema : Option Schema) (t : DescriptorTable)
    (d : Descriptor) :
    (if d.parsedSelector.target?.isNone = true then expand p schema t d else pure t) =
      if d.parsedSelector.isCategory = true then expand p schema t d else pure t := by
  cases hcategory : d.parsedSelector.isCategory with
  | true => simp [Selector.target?_of_isCategory hcategory]
  | false =>
    cases htarget : d.parsedSelector.target? with
    | some target => simp
    | none =>
      have htargets : targetsFor p schema d = .ok [] := by
        rw [targetsFor_eq_toList (Selector.isCategory_eq_false_iff.1 hcategory), htarget]
        rfl
      simp only [expand, htargets, Option.isNone_none, if_true, Bool.false_eq_true, if_false]
      rfl

theorem foldlM_expand_heldBack (t : DescriptorTable) (ds : List Descriptor) :
    (heldBack ds).foldlM (expand p schema) t =
      (ds.filter fun d => d.parsedSelector.isCategory).foldlM (expand p schema) t := by
  have hstep := funext₂ (expand_heldBack_eq p schema)
  rw [heldBack, List.foldlM_filter, List.foldlM_filter, hstep]

/-- Only the targets of a category can be at fault. -/
theorem findSome?_targetFault? (ds : List Descriptor) :
    (ds.filter fun d => d.parsedSelector.isCategory).findSome? (targetFault? p schema) =
      ds.findSome? (targetFault? p schema) := by
  induction ds with
  | nil => rfl
  | cons d ds ih =>
    rw [List.filter_cons, List.findSome?_cons]
    cases hcategory : d.parsedSelector.isCategory with
    | true => simp only [if_true, List.findSome?_cons, ih]
    | false => simp [targetFault?_of_not_isCategory hcategory, ih]

/-- Those that are not of a category have a target if they name it. -/
theorem filter_literals (p : ProfileSet) (schema : Option Schema) (ds : List Descriptor)
    (target : String) :
    (ds.filter fun d => !d.parsedSelector.isCategory).filter
        (fun d => target ∈ targetsOf p schema d) =
      ds.filter fun d => d.parsedSelector.target? = some target := by
  have hnames (d : Descriptor) :
      (decide (target ∈ targetsOf p schema d) && !d.parsedSelector.isCategory) =
        decide (d.parsedSelector.target? = some target) := by
    cases hcategory : d.parsedSelector.isCategory with
    | true => simp [Selector.target?_of_isCategory hcategory]
    | false => simp [targetsOf_of_not_isCategory hcategory]
  rw [List.filter_filter]
  simp only [hnames]

/-- The first pass lists under a target the descriptors that name it, without repeats. -/
theorem get_ofLiterals (ds : List Descriptor) (target : String) : (ofLiterals ds).get target =
    (ds.filter fun d => d.parsedSelector.target? = some target).eraseDups := by
  rw [ofLiterals_eq ⟨"", []⟩ none, get_listAll_empty, filter_literals]

/-- The builder sorts exactly if its descriptors ask for it. -/
theorem globalFlag_ofLiterals (ds : List Descriptor) :
    (ofLiterals ds).globalFlag sortResourcesParameter false = asksForSorting ds := by
  rw [globalFlag, globalParameter?, get_ofLiterals, findSome?_eraseDups, asksForSorting]
  split
  next value hvalue => rw [hvalue, Option.any_some]
  next hnone => rw [hnone, Option.any_none]

/-- The two passes over the descriptors, with the sorts that they ask for. -/
theorem build_eq (p : ProfileSet) (schema : Option Schema) (ds : List Descriptor) :
    build p schema ds =
      let named := listAll p schema Grouping.empty (ds.filter fun d => !d.parsedSelector.isCategory)
      let categories := ds.filter fun d => d.parsedSelector.isCategory
      match ds.findSome? (targetFault? p schema) with
      | some e => .error e
      | none => .ok (
        if asksForSorting ds then (listAll p schema (named.sort p) categories).sort p
        else listAll p schema named categories) := by
  simp only [build, globalFlag_ofLiterals, foldlM_expand_heldBack]
  simp only [foldlM_expand, findSome?_targetFault?, ← ofLiterals_eq]
  cases ds.findSome? (targetFault? p schema) with
  | some e => rfl
  | none => cases asksForSorting ds <;> rfl

end Building

section Built

theorem build_eq_error_iff {e : Error} : build p schema ds = .error e ↔
    ∃ before d after, ds = before ++ d :: after ∧
      (∀ b ∈ before, ∃ targets, targetsFor p schema b = .ok targets) ∧
        targetsFor p schema d = .error e := by
  have hfault : build p schema ds = .error e ↔ ds.findSome? (targetFault? p schema) = some e := by
    rw [build_eq]
    cases ds.findSome? (targetFault? p schema) <;> simp
  rw [hfault, List.findSome?_eq_some_iff]
  simp only [targetFault?_eq_none_iff, targetFault?_eq_some_iff]
  constructor
  · rintro ⟨before, d, after, hds, hd, hbefore⟩
    exact ⟨before, d, after, hds, hbefore, hd⟩
  · rintro ⟨before, d, after, hds, hbefore, hd⟩
    exact ⟨before, d, after, hds, hd, hbefore⟩

/-- The table is what the two passes have made it. They end with sorted lists if these are asked
for. -/
theorem passes_of_build (h : build p schema ds = .ok table) :
    let named := listAll p schema Grouping.empty (ds.filter fun d => !d.parsedSelector.isCategory)
    let categories := ds.filter fun d => d.parsedSelector.isCategory
    table = if asksForSorting ds then (listAll p schema (named.sort p) categories).sort p
      else listAll p schema named categories := by
  rw [build_eq] at h
  cases hfault : ds.findSome? (targetFault? p schema) with
  | some e => simp [hfault] at h
  | none =>
    rw [hfault] at h
    exact (Except.ok.inj h).symm

/-- A sort does not touch the targets, so they stand in the order of the two passes in any case. -/
theorem keys_of_build (h : build p schema ds = .ok table) :
    table.keys = targetOrder p schema ds := by
  have hsort (t : DescriptorTable) : (t.sort p).keys = t.keys := Grouping.keys_mapLists _ t
  have hempty : (Grouping.empty : DescriptorTable).keys = [] := rfl
  rw [targetOrder, categoriesLast, List.flatMap_append, ← foldl_pushNew_nil, List.foldl_append,
    passes_of_build h]
  split
  next => rw [hsort, keys_listAll, hsort, keys_listAll, hempty]
  next => rw [keys_listAll, keys_listAll, hempty]

/-- Where no sort is asked for, the lists are those of the two passes. -/
theorem get_of_build (h : build p schema ds = .ok table) (hoff : asksForSorting ds = false)
    (target : String) : table.get target = listing p schema ds target := by
  simp only [passes_of_build h, hoff, Bool.false_eq_true, if_false]
  rw [get_listAll, get_listAll, listing, categoriesLast, List.filter_append, ← foldl_pushNew_nil,
    List.foldl_append, Grouping.get_empty]

theorem mem_categoriesLast {d : Descriptor} : d ∈ categoriesLast ds ↔ d ∈ ds := by
  rw [categoriesLast, List.mem_append, List.mem_filter, List.mem_filter]
  cases d.parsedSelector.isCategory <;> simp

theorem mem_listing {d : Descriptor} {target : String} : d ∈ listing p schema ds target ↔
    d ∈ ds ∧ ∃ targets, targetsFor p schema d = .ok targets ∧ target ∈ targets := by
  rw [listing, List.mem_eraseDups, List.mem_filter, mem_categoriesLast, decide_eq_true_iff,
    mem_targetsOf_iff]

/-- No descriptor is listed twice under a target. -/
theorem Reachable.nodup_get (h : table.Reachable) (target : String) : (table.get target).Nodup := by
  induction h with
  | empty => exact List.nodup_nil
  | insert key d _ ih =>
    rw [get_insert]
    split
    next => exact nodup_pushNew ih d
    next => exact ih
  | sort p _ ih =>
    rw [DescriptorTable.sort, Grouping.get_mapLists _ (by simp [sortBySpecificity])]
    exact (perm_sortBySpecificity p id _).nodup_iff.2 ih

/-- A target is there only with a descriptor. -/
theorem Reachable.noEmptyList (h : table.Reachable) : table.NoEmptyList := by
  induction h with
  | empty => exact Grouping.noEmptyList_empty
  | insert target d _ ih =>
    unfold DescriptorTable.insert
    split
    next => exact ih
    next => exact ih.push target d
  | sort p _ ih => exact ih.mapLists fun values => (perm_sortBySpecificity p id values).length_eq

/-- In any case, the lists are those of the two passes in some order. -/
theorem perm_of_build (h : build p schema ds = .ok table) (target : String) :
    (table.get target).Perm (listing p schema ds target) := by
  have hnodup : (listing p schema ds target).Nodup := nodup_eraseDups _
  rw [List.perm_ext_iff_of_nodup ((reachable_of_build h).nodup_get target) hnodup]
  intro d
  rw [mem_get_build h, mem_listing]

theorem noEmptyList_of_build (h : build p schema ds = .ok table) : table.NoEmptyList :=
  (reachable_of_build h).noEmptyList

end Built

/-- A build fails exactly if the targets of some descriptor cannot be resolved, with the error of
the first one. Otherwise a descriptor is listed under a target exactly if the target is one of its
own, and a target has the descriptors that the two passes bring to it, without repeats and at least
one. They stand in the order of the passes unless sorted lists are asked for, and the targets stand
in the order in which the passes bring them up. -/
theorem build_in_passes (p : ProfileSet) (schema : Option Schema) (ds : List Descriptor) :
    (∀ e, build p schema ds = .error e ↔ ∃ before d after, ds = before ++ d :: after ∧
      (∀ b ∈ before, ∃ targets, targetsFor p schema b = .ok targets) ∧
        targetsFor p schema d = .error e) ∧
    ∀ table, build p schema ds = .ok table →
      (∀ d ∈ ds, ∀ target, d ∈ table.get target ↔
        ∃ targets, targetsFor p schema d = .ok targets ∧ target ∈ targets) ∧
      (∀ target, (table.get target).Perm (listing p schema ds target)) ∧
      (asksForSorting ds = false → ∀ target, table.get target = listing p schema ds target) ∧
      table.keys = targetOrder p schema ds ∧
      table.NoEmptyList := by
  refine ⟨fun e => build_eq_error_iff, fun table h => ?_⟩
  refine ⟨fun d hd target => ?_, perm_of_build h, get_of_build h, keys_of_build h,
    noEmptyList_of_build h⟩
  rw [mem_get_build h]
  exact and_iff_right hd

/-- A schema with two empty elements. -/
def breakSchema : Option Schema :=
  (Dtd.parse "<!ELEMENT br EMPTY><!ELEMENT p ANY><!ELEMENT hr EMPTY>").toOption.map Dtd.schema

/-- A category before elements that it contains, with repeats of both kinds. -/
def mixedDescriptors : List Descriptor :=
  [{ selector := "macro:empty" }, { selector := "p" }, { selector := "hr" }, { selector := "p" },
    { selector := "macro:empty" }]

theorem build_of_mixedDescriptors :
    ∃ table, build ⟨"html", []⟩ breakSchema mixedDescriptors = .ok table ∧
      table.keys = ["p", "hr", "br"] ∧
      (table.get "hr").map Descriptor.selector = ["hr", "macro:empty"] := by
  have hbuilt : (build ⟨"html", []⟩ breakSchema mixedDescriptors).toOption.isSome = true := by
    decide +kernel
  obtain ⟨table, htable⟩ := Error.isSome_toOption_iff.1 hbuilt
  obtain ⟨-, -, hlists, hkeys, -⟩ := (build_in_passes _ _ _).2 table htable
  refine ⟨table, htable, hkeys.trans (by decide +kernel), ?_⟩
  rw [hlists (by decide +kernel)]
  decide +kernel

end DescriptorTable

end DeliveryPipeline
