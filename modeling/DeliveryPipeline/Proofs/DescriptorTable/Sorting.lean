import DeliveryPipeline.Proofs.DescriptorTable.Order

/-!
# Sorted tables

A builder that is asked for sorted lists sorts them twice, before the categories are expanded and
after it. The expansion lists the same descriptors whatever the order of the lists is, and puts them
at the end, and to sort the front of a list beforehand makes no difference to a stable sort. So the
table comes to the same as one that is sorted only when it is finished.
-/
namespace DeliveryPipeline.DescriptorTable

variable {p : ProfileSet} {schema : Option Schema}

/-- Group and expand descriptors as they come, without a sort. -/
def buildUnsorted (p : ProfileSet) (schema : Option Schema) (ds : List Descriptor) :
    Except Error DescriptorTable :=
  (heldBack ds).foldlM (expand p schema) (ofLiterals ds)

theorem get_sort (t : DescriptorTable) (p : ProfileSet) (target : String) :
    (t.sort p).get target = sortBySpecificity p id (t.get target) :=
  Grouping.get_mapLists _ (by simp [sortBySpecificity]) t target

/-- A table that is sorted stays as it is when it is sorted again. -/
theorem sort_sort (t : DescriptorTable) (p : ProfileSet) : (t.sort p).sort p = t.sort p :=
  Grouping.mapLists_mapLists sortBySpecificity_sortBySpecificity t

/-- Whether a table is sorted before an insertion does not show once it is sorted after it. -/
theorem sort_insert (t : DescriptorTable) (p : ProfileSet) (target : String) (d : Descriptor) :
    ((t.sort p).insert target d).sort p = (t.insert target d).sort p := by
  unfold insert contains
  simp only [mem_get_sort]
  split
  next => exact sort_sort t p
  next => exact Grouping.mapLists_push sortBySpecificity_append t target d

/-- What holds of a step holds of many: a sort beforehand does not show once there is one after
them. -/
theorem sort_foldl {α : Type} {f : DescriptorTable → α → DescriptorTable}
    (hf : ∀ t a, (f (t.sort p) a).sort p = (f t a).sort p) (as : List α) (t : DescriptorTable) :
    (as.foldl f (t.sort p)).sort p = (as.foldl f t).sort p := by
  induction as generalizing t with
  | nil => exact sort_sort t p
  | cons a as ih =>
    calc (as.foldl f (f (t.sort p) a)).sort p
        = (as.foldl f ((f (t.sort p) a).sort p)).sort p := (ih _).symm
      _ = (as.foldl f ((f t a).sort p)).sort p := by rw [hf]
      _ = (as.foldl f (f t a)).sort p := ih _

theorem sort_listAll (t : DescriptorTable) (ds : List Descriptor) :
    ((t.sort p).listAll p schema ds).sort p = (t.listAll p schema ds).sort p :=
  sort_foldl (fun t d => sort_foldl (fun t target => sort_insert t p target d) _ t) ds t

/-- A build fails as it does without a sort, and else its table is sorted once if this is asked
for. -/
theorem build_eq_map_buildUnsorted (p : ProfileSet) (schema : Option Schema)
    (ds : List Descriptor) : build p schema ds = (buildUnsorted p schema ds).map fun unsorted =>
      if (ofLiterals ds).globalFlag sortResourcesParameter false then unsorted.sort p
      else unsorted := by
  simp only [build, buildUnsorted, foldlM_expand]
  cases (heldBack ds).findSome? (targetFault? p schema) with
  | some e => rfl
  | none =>
    cases (ofLiterals ds).globalFlag sortResourcesParameter false with
    | false => rfl
    | true => exact congrArg Except.ok (sort_listAll (ofLiterals ds) (heldBack ds))

/-- A built table is the one that grouping and expansion make without a sort. If the global
parameters among the descriptors that name their targets ask for it, each list of that table has
been sorted stably by descending rank. The targets stand as they did, and the table is sorted for
good. -/
theorem build_sorts_once {ds : List Descriptor} {table : DescriptorTable}
    (h : build p schema ds = .ok table) :
    ∃ unsorted, buildUnsorted p schema ds = .ok unsorted ∧
      ((ofLiterals ds).globalFlag sortResourcesParameter false = false → table = unsorted) ∧
      ((ofLiterals ds).globalFlag sortResourcesParameter false = true →
        table = unsorted.sort p ∧ table.keys = unsorted.keys ∧
        (∀ target, StablySorted p id (unsorted.get target) (table.get target)) ∧
        table.sort p = table) := by
  rw [build_eq_map_buildUnsorted] at h
  cases hunsorted : buildUnsorted p schema ds with
  | error e =>
    rw [hunsorted] at h
    cases h
  | ok unsorted =>
    rw [hunsorted] at h
    have htable : (if (ofLiterals ds).globalFlag sortResourcesParameter false then unsorted.sort p
      else unsorted) = table := Except.ok.inj h
    refine ⟨unsorted, rfl, fun hoff => ?_, fun hon => ?_⟩
    · rw [hoff] at htable
      exact htable.symm
    · rw [if_pos hon] at htable
      subst htable
      refine ⟨rfl, Grouping.keys_mapLists _ unsorted, fun target => ?_, sort_sort unsorted p⟩
      rw [get_sort]
      exact stablySorted_sortBySpecificity p id (unsorted.get target)

/-- Descriptors of several ranks for one element, one of them a category, with the request to sort
them. -/
def rankedDescriptors : List Descriptor :=
  [{ selector := "macro:empty" }, { selector := "br" }, { selector := "p br" },
    Descriptor.setParameter { selector := "global-parameters" } sortResourcesParameter "true",
    { selector := "br", profile := "html" }]

/-- The list of the element is sorted, and was not in order before. -/
theorem build_of_rankedDescriptors :
    ∃ table unsorted, build ⟨"html", []⟩ breakSchema rankedDescriptors = .ok table ∧
      buildUnsorted ⟨"html", []⟩ breakSchema rankedDescriptors = .ok unsorted ∧
      (unsorted.get "br").map (fun d => (d.selector, d.profile)) =
        [("br", ""), ("p br", ""), ("br", "html"), ("macro:empty", "")] ∧
      StablySorted ⟨"html", []⟩ id (unsorted.get "br") (table.get "br") ∧
      table.get "br" ≠ unsorted.get "br" := by
  have hgrouped : (buildUnsorted ⟨"html", []⟩ breakSchema rankedDescriptors).toOption.map
      (fun unsorted => ((unsorted.get "br").map (fun d => (d.selector, d.profile)),
        decide ((unsorted.get "br").Pairwise fun x y =>
          (compareDescriptors ⟨"html", []⟩ x y).isLE = true))) =
        some ([("br", ""), ("p br", ""), ("br", "html"), ("macro:empty", "")], false) := by
    decide +kernel
  obtain ⟨grouped, hok, hfacts⟩ := Error.map_toOption_eq_some_iff.1 hgrouped
  obtain ⟨hlist, hdescending⟩ := Prod.mk.inj hfacts
  have hbuilt : ∃ table, build ⟨"html", []⟩ breakSchema rankedDescriptors = .ok table := by
    rw [build_eq_map_buildUnsorted, hok]
    exact ⟨_, rfl⟩
  obtain ⟨table, htable⟩ := hbuilt
  obtain ⟨unsorted, hunsorted, -, hon⟩ := build_sorts_once htable
  obtain ⟨-, -, hsorted, -⟩ := hon (by decide +kernel)
  obtain rfl : grouped = unsorted := Except.ok.inj (hok.symm.trans hunsorted)
  refine ⟨table, grouped, htable, hok, hlist, hsorted "br", fun hsame => ?_⟩
  rw [← hsame] at hdescending
  exact of_decide_eq_false hdescending (hsorted "br").descending

end DeliveryPipeline.DescriptorTable
