import DeliveryPipeline.Proofs.DescriptorTable.Globals
import DeliveryPipeline.Proofs.DescriptorTable.Sorting
import DeliveryPipeline.Proofs.Specificity.Ranking

/-!
# The option that asks for sorted lists

A builder reads once whether it is to sort, from the first descriptor under the reserved target that
says so. The sort puts the most specific descriptor first under every target, the reserved one
included. So the option reads from the finished table what the most specific of its descriptors
says, which may be the opposite.
-/
namespace DeliveryPipeline

/-- The descriptor states a value of a parameter. -/
def Descriptor.states (d : Descriptor) (name : String) : Bool :=
  (d.parameter? name).isSome

/-- The descriptor states a value of a parameter that turns it on. -/
def Descriptor.turnsOn (d : Descriptor) (name : String) : Bool :=
  (d.parameter? name).any fun value => Text.sameIgnoringCase (Text.trim value) "true"

/-- The most specific descriptor that states a parameter, and the first of those in the list: what
stands before it and states the parameter is less specific, and what stands after it is not more
specific. -/
structure Leads (p : ProfileSet) (name : String) (ds : List Descriptor) (d : Descriptor) :
    Prop where
  states : d.states name = true
  split : ∃ before after, ds = before ++ d :: after ∧
    (∀ e ∈ before, e.states name = true → MoreSpecific p d e) ∧
    ∀ e ∈ after, e.states name = true → ¬ MoreSpecific p e d

section Leading

variable {p : ProfileSet} {name : String} {ds : List Descriptor} {d : Descriptor}

theorem Leads.mem (h : Leads p name ds d) : d ∈ ds := by
  obtain ⟨before, after, rfl, -⟩ := h.split
  simp

/-- The one that leads is the first of its rank that states the parameter, and all that state it are
at most as specific. -/
theorem leads_iff : Leads p name ds d ↔
    (ds.filter fun e => Specificity.of p e = Specificity.of p d).find? (·.states name) = some d ∧
      ∀ e ∈ ds, e.states name = true → (compareDescriptors p d e).isLE = true := by
  rw [List.find?_filter, List.find?_eq_some_iff_append]
  simp only [decide_eq_true_eq, Bool.not_eq_true', decide_eq_false_iff_not, not_and]
  constructor
  · rintro ⟨hd, before, after, rfl, hbefore, hafter⟩
    refine ⟨⟨⟨trivial, hd⟩, before, after, rfl, fun e he hrank hstates => ?_⟩,
      fun e he hstates => ?_⟩
    · exact ((moreSpecific_iff ..).1 (hbefore e he hstates)).2 hrank.symm
    · rw [List.mem_append, List.mem_cons] at he
      rcases he with he | rfl | he
      · exact ((moreSpecific_iff ..).1 (hbefore e he hstates)).1
      · exact Specificity.isLE_compare_self _
      · exact (not_moreSpecific_iff ..).1 (hafter e he hstates)
  · rintro ⟨⟨⟨-, hd⟩, before, after, rfl, hbefore⟩, hle⟩
    refine ⟨hd, before, after, rfl, fun e he hstates => ?_, fun e he hstates => ?_⟩
    · refine (moreSpecific_iff ..).2 ⟨hle e (by simp [he]) hstates, fun hrank => ?_⟩
      exact hbefore e he hrank.symm hstates
    · exact (not_moreSpecific_iff ..).2 (hle e (by simp [he]) hstates)

/-- Two that lead are of one rank, and the first of it. -/
theorem Leads.unique {e : Descriptor} (h : Leads p name ds d) (h' : Leads p name ds e) : d = e := by
  have hrank : Specificity.of p d = Specificity.of p e := Specificity.eq_of_isLE_compare
    ((leads_iff.1 h').2 d h.mem h.states) ((leads_iff.1 h).2 e h'.mem h'.states)
  have hfirst := (leads_iff.1 h).1
  rw [hrank, (leads_iff.1 h').1] at hfirst
  exact (Option.some.inj hfirst).symm

/-- What holds of some descriptor that leads holds of the one that does. -/
theorem Leads.exists_iff (h : Leads p name ds d) {q : Descriptor → Prop} :
    (∃ e, Leads p name ds e ∧ q e) ↔ q d := by
  constructor
  · rintro ⟨e, he, hq⟩
    rwa [h.unique he]
  · exact fun hq => ⟨d, h, hq⟩

theorem exists_find?_states (hd : d ∈ ds) (hstates : d.states name = true) :
    ∃ e, ds.find? (·.states name) = some e :=
  Option.isSome_iff_exists.1 (List.find?_isSome.2 ⟨d, hd, hstates⟩)

/-- A sort by rank puts the one that leads before all others that state the parameter. -/
theorem find?_sortBySpecificity :
    (sortBySpecificity p id ds).find? (·.states name) = some d ↔ Leads p name ds d := by
  have hmem (e : Descriptor) : e ∈ sortBySpecificity p id ds ↔ e ∈ ds :=
    (perm_sortBySpecificity p id ds).mem_iff
  have hleads {e : Descriptor}
      (h : (sortBySpecificity p id ds).find? (·.states name) = some e) : Leads p name ds e := by
    obtain ⟨he, before, after, hsplit, hbefore⟩ := List.find?_eq_some_iff_append.1 h
    have hsilent : ∀ x ∈ before, x.states name = false := by simpa using hbefore
    refine leads_iff.2 ⟨?_, fun x hx hstates => ?_⟩
    · -- those of one rank stand in the same order before the sort and after it
      have hrank : (sortBySpecificity p id ds).filter
            (fun x => Specificity.of p x = Specificity.of p e) =
          ds.filter fun x => Specificity.of p x = Specificity.of p e :=
        filter_sortBySpecificity p id ds _
      rw [← hrank, List.find?_filter, List.find?_eq_some_iff_append]
      exact ⟨by simp [he], before, after, hsplit, fun x hx => by simp [hsilent x hx]⟩
    · have hsorted := pairwise_sortBySpecificity p id ds
      rw [hsplit, List.pairwise_append, List.pairwise_cons] at hsorted
      rw [← hmem, hsplit, List.mem_append, List.mem_cons] at hx
      rcases hx with hx | rfl | hx
      · simp [hsilent x hx] at hstates
      · exact Specificity.isLE_compare_self _
      · exact hsorted.2.1.1 x hx
  refine ⟨hleads, fun h => ?_⟩
  obtain ⟨e, he⟩ := exists_find?_states ((hmem d).2 h.mem) h.states
  rw [he, (hleads he).unique h]

/-- Where some descriptor states the parameter, one leads. -/
theorem exists_leads (p : ProfileSet) (hd : d ∈ ds) (hstates : d.states name = true) :
    ∃ e, Leads p name ds e := by
  have hsorted : d ∈ sortBySpecificity p id ds := (perm_sortBySpecificity p id ds).mem_iff.2 hd
  obtain ⟨e, he⟩ := exists_find?_states hsorted hstates
  exact ⟨e, find?_sortBySpecificity.1 he⟩

/-- Repeats do not count. -/
theorem leads_eraseDups : Leads p name ds.eraseDups d ↔ Leads p name ds d := by
  rw [leads_iff, leads_iff, filter_eraseDups, find?_eraseDups]
  simp only [List.mem_eraseDups]

/-- Which descriptor leads is decided among those that state the parameter. -/
theorem leads_congr {ds' : List Descriptor}
    (h : ds.filter (·.states name) = ds'.filter (·.states name)) :
    Leads p name ds d ↔ Leads p name ds' d := by
  have hfiltered (ds : List Descriptor) : Leads p name ds d ↔
      ((ds.filter (·.states name)).filter
          fun e => Specificity.of p e = Specificity.of p d).head? = some d ∧
        ∀ e ∈ ds.filter (·.states name), (compareDescriptors p d e).isLE = true := by
    rw [leads_iff, ← List.head?_filter, List.filter_filter, List.filter_filter]
    simp only [List.mem_filter, and_imp, Bool.and_comm]
  rw [hfiltered, hfiltered, h]

/-- The first value of a parameter is that of the first descriptor that states it. -/
theorem findSome?_parameter? (ds : List Descriptor) (name : String) :
    ds.findSome? (fun d => d.parameter? name) =
      (ds.find? (·.states name)).bind fun d => d.parameter? name := by
  induction ds with
  | nil => rfl
  | cons d ds ih =>
    rw [List.findSome?_cons, List.find?_cons, Descriptor.states]
    cases hvalue : d.parameter? name with
    | none => exact ih
    | some value => simp [hvalue]

end Leading

namespace DescriptorTable

variable {p : ProfileSet} {schema : Option Schema} {ds : List Descriptor}
  {table unsorted : DescriptorTable}

/-- A flag is what the first descriptor says that states it under the reserved target. -/
theorem globalFlag_eq (t : DescriptorTable) (name : String) :
    t.globalFlag name false =
      ((t.get globalTarget).find? (·.states name)).any (·.turnsOn name) := by
  rw [globalFlag, globalParameter?, findSome?_parameter?]
  cases hfound : (t.get globalTarget).find? (·.states name) with
  | none => rfl
  | some d =>
    have hstates : d.states name = true := by simpa using List.find?_some hfound
    rw [Option.bind_some, Option.any_some, Descriptor.turnsOn]
    rw [Descriptor.states] at hstates
    cases hvalue : d.parameter? name with
    | none => simp [hvalue] at hstates
    | some value => rfl

/-- In a sorted table a flag is what the most specific descriptor says that states it. -/
theorem globalFlag_sort_iff (t : DescriptorTable) (p : ProfileSet) (name : String) :
    (t.sort p).globalFlag name false = true ↔
      ∃ d, Leads p name (t.get globalTarget) d ∧ d.turnsOn name = true := by
  rw [globalFlag_eq, get_sort, Option.any_eq_true]
  simp only [find?_sortBySpecificity]

/-- The descriptors that name the reserved target. -/
def globals (ds : List Descriptor) : List Descriptor :=
  ds.filter fun d => d.parsedSelector.target? = some globalTarget

/-- Without a sort, the lists are those of the two passes. -/
theorem get_of_buildUnsorted (h : buildUnsorted p schema ds = .ok unsorted) (target : String) :
    unsorted.get target = listing p schema ds target := by
  rw [buildUnsorted, foldlM_expand_heldBack, foldlM_expand] at h
  split at h
  next => cases h
  next =>
    cases h
    rw [ofLiterals_eq p schema, get_listAll, get_listAll_empty, listing, categoriesLast,
      List.filter_append, ← foldl_pushNew_nil, ← foldl_pushNew_nil, List.foldl_append]

/-- If no category that states the parameter has the reserved target, those that state it there are
those that name it. -/
theorem filter_states_of_buildUnsorted {name : String}
    (h : buildUnsorted p schema ds = .ok unsorted)
    (hnone : ∀ d ∈ ds, d.parsedSelector.isCategory = true → d.states name = true →
      globalTarget ∉ targetsOf p schema d) :
    (unsorted.get globalTarget).filter (·.states name) =
      (globals ds).eraseDups.filter (·.states name) := by
  have hidle : ((ds.filter fun d => d.parsedSelector.isCategory).filter
      fun d => globalTarget ∈ targetsOf p schema d).filter (·.states name) = [] := by
    simp only [List.filter_eq_nil_iff, List.mem_filter, decide_eq_true_eq]
    rintro d ⟨⟨hd, hcategory⟩, htarget⟩ hstates
    exact hnone d hd hcategory hstates htarget
  rw [get_of_buildUnsorted h, listing, categoriesLast, List.filter_append, filter_literals,
    filter_eraseDups, filter_eraseDups, List.filter_append, hidle, List.append_nil, globals]

/-- A builder goes by the first of them that states the option. -/
theorem globalFlag_ofLiterals_eq (ds : List Descriptor) (name : String) :
    (ofLiterals ds).globalFlag name false =
      ((globals ds).find? (·.states name)).any (·.turnsOn name) := by
  rw [globalFlag_eq, get_ofLiterals, find?_eraseDups, globals]

/-- A builder that sorts has found the option stated. -/
theorem exists_leads_of_sorts
    (h : (ofLiterals ds).globalFlag sortResourcesParameter false = true) (p : ProfileSet) :
    ∃ d, Leads p sortResourcesParameter (globals ds) d := by
  rw [globalFlag_ofLiterals_eq, Option.any_eq_true] at h
  obtain ⟨d, hfound, -⟩ := h
  exact exists_leads p (List.mem_of_find?_eq_some hfound) (by simpa using List.find?_some hfound)

/-- Descriptors that name nothing but the reserved target build. -/
theorem build_of_globals (p : ProfileSet) (schema : Option Schema)
    (hglobals : ∀ d ∈ ds, d.parsedSelector = .globals) :
    build p schema ds = .ok
      (if (ofLiterals ds).globalFlag sortResourcesParameter false then (ofLiterals ds).sort p
        else ofLiterals ds) := by
  have hheld : heldBack ds = [] := by
    rw [heldBack, List.filter_eq_nil_iff]
    intro d hd
    simp [hglobals d hd, Selector.target?]
  rw [build_eq_map_buildUnsorted, buildUnsorted, hheld]
  rfl

theorem globals_eq_self (hglobals : ∀ d ∈ ds, d.parsedSelector = .globals) : globals ds = ds := by
  rw [globals, List.filter_eq_self]
  intro d hd
  simp [hglobals d hd, Selector.target?]

/-- A builder sorts if the first descriptor that names the reserved target and states the option
turns it on. Where no category that states it reaches the reserved target, the option reads as on
from the finished table exactly if the builder has sorted and the most specific of these descriptors
turns it on as well. So the two readings differ exactly if the builder has sorted and that one does
not. -/
theorem sorting_option_of_build (h : build p schema ds = .ok table) :
    let sorts := (ofLiterals ds).globalFlag sortResourcesParameter false
    let reread := table.globalFlag sortResourcesParameter false
    (∃ unsorted, buildUnsorted p schema ds = .ok unsorted ∧
      table = if sorts then unsorted.sort p else unsorted) ∧
    ((∀ d ∈ ds, d.parsedSelector.isCategory = true → d.states sortResourcesParameter = true →
        globalTarget ∉ targetsOf p schema d) →
      (reread = true ↔ sorts = true ∧ ∃ d, Leads p sortResourcesParameter (globals ds) d ∧
        d.turnsOn sortResourcesParameter = true) ∧
      (reread ≠ sorts ↔ sorts = true ∧ ∃ d, Leads p sortResourcesParameter (globals ds) d ∧
        d.turnsOn sortResourcesParameter = false)) := by
  intro sorts reread
  rw [build_eq_map_buildUnsorted, Error.map_eq_ok_iff] at h
  obtain ⟨unsorted, hunsorted, htable⟩ := h
  refine ⟨⟨unsorted, hunsorted, htable.symm⟩, fun hnone => ?_⟩
  have hstated := filter_states_of_buildUnsorted hunsorted hnone
  cases hsorts : sorts with
  | false =>
    obtain rfl : unsorted = table := by rwa [if_neg (Bool.eq_false_iff.1 hsorts)] at htable
    have hsame : reread = sorts := by
      simp only [reread, sorts, globalFlag_eq, ← List.head?_filter, hstated, get_ofLiterals,
        globals]
    simp [hsame, hsorts]
  | true =>
    obtain rfl : unsorted.sort p = table := by rwa [if_pos hsorts] at htable
    obtain ⟨d, hd⟩ := exists_leads_of_sorts hsorts p
    have hread : reread = true ↔ d.turnsOn sortResourcesParameter = true := by
      rw [globalFlag_sort_iff]
      simp only [leads_congr hstated, leads_eraseDups]
      exact hd.exists_iff
    refine ⟨?_, ?_⟩
    · rw [hd.exists_iff, hread, eq_self, true_and]
    · rw [hd.exists_iff, Ne, hread, Bool.not_eq_true, eq_self, true_and]

/-- A descriptor that names the reserved target, for the given profiles, and states the option. -/
def requestFor (profile value : String) : Descriptor :=
  Descriptor.setParameter { selector := globalTarget, profile } sortResourcesParameter value

theorem parsedSelector_requestFor (profile value : String) :
    (requestFor profile value).parsedSelector = .globals := by
  have htrim : Text.trim globalTarget = globalTarget := by decide +kernel
  have hnamed : ¬ (globalTarget = "" ∨ globalTarget = wildcardName) := by decide
  change Selector.parse globalTarget = .globals
  rw [Selector.parse, htrim, if_neg hnamed, if_pos (by simp [Text.sameIgnoringCase])]

theorem target?_requestFor (profile value : String) :
    (requestFor profile value).parsedSelector.target? = some globalTarget := by
  rw [parsedSelector_requestFor, Selector.target?]

theorem isCategory_requestFor (profile value : String) :
    (requestFor profile value).parsedSelector.isCategory = false := by
  rw [parsedSelector_requestFor]
  rfl

theorem parameter?_requestFor (profile value : String) :
    (requestFor profile value).parameter? sortResourcesParameter = some value := by
  rw [requestFor, Descriptor.parameter?, Descriptor.setParameter, Dictionary.get?_set, if_pos rfl]

theorem states_requestFor (profile value : String) :
    (requestFor profile value).states sortResourcesParameter = true := by
  rw [Descriptor.states, parameter?_requestFor, Option.isSome_some]

theorem turnsOn_requestFor (profile value : String) :
    (requestFor profile value).turnsOn sortResourcesParameter =
      Text.sameIgnoringCase (Text.trim value) "true" := by
  rw [Descriptor.turnsOn, parameter?_requestFor, Option.any_some]

/-- The builder goes by the first request. -/
theorem globalFlag_ofLiterals_requestFor (profile value : String) (ds : List Descriptor) :
    (ofLiterals (requestFor profile value :: ds)).globalFlag sortResourcesParameter false =
      Text.sameIgnoringCase (Text.trim value) "true" := by
  have hfirst : globals (requestFor profile value :: ds) =
      requestFor profile value :: globals ds :=
    List.filter_cons_of_pos (decide_eq_true (target?_requestFor profile value))
  rw [globalFlag_ofLiterals_eq, hfirst, List.find?_cons, states_requestFor, Option.any_some,
    turnsOn_requestFor]

theorem profileExpression_requestFor (profile value : String) :
    (requestFor profile value).profileExpression = .parse profile :=
  rfl

/-- Requests differ in rank by their profiles alone. -/
theorem moreSpecific_requestFor_iff (p : ProfileSet) (profile profile' value value' : String) :
    MoreSpecific p (requestFor profile value) (requestFor profile' value') ↔
      (ProfileExpression.parse profile').specificity p <
        (ProfileExpression.parse profile).specificity p := by
  rw [moreSpecific_iff_of_selector, profileExpression_requestFor, profileExpression_requestFor]
  rw [parsedSelector_requestFor, parsedSelector_requestFor]

/-- A request that is taken back for a sub-profile and made again for the base profile, with a
descriptor of a category that has nothing to do with it. -/
def renewedRequest : List Descriptor :=
  [requestFor "" "true", requestFor "screen" "false", requestFor "html" "true",
    { selector := "macro:empty" }]

/-- The request for the base profile leads, so the option still reads as on, although a category
reaches the reserved target. -/
theorem sorting_option_of_renewedRequest :
    ∃ table, build ⟨"html", ["screen"]⟩ intrusiveSchema renewedRequest = .ok table ∧
      (∀ d ∈ renewedRequest, d.parsedSelector.isCategory = true →
        d.states sortResourcesParameter = true →
          globalTarget ∉ targetsOf ⟨"html", ["screen"]⟩ intrusiveSchema d) ∧
      (∃ d ∈ renewedRequest, globalTarget ∈ targetsOf ⟨"html", ["screen"]⟩ intrusiveSchema d ∧
        d.parsedSelector.isCategory = true) ∧
      table.globalFlag sortResourcesParameter false = true := by
  have hcategory : ({ selector := "macro:empty" } : Descriptor).parsedSelector.isCategory = true :=
    by decide +kernel
  have hglobals : globals renewedRequest =
      [requestFor "" "true", requestFor "screen" "false", requestFor "html" "true"] := by
    simp [renewedRequest, globals, target?_requestFor, Selector.target?_of_isCategory hcategory]
  have hnone : ∀ d ∈ renewedRequest, d.parsedSelector.isCategory = true →
      d.states sortResourcesParameter = true →
        globalTarget ∉ targetsOf ⟨"html", ["screen"]⟩ intrusiveSchema d := by
    have hsilent : ({ selector := "macro:empty" } : Descriptor).states
        sortResourcesParameter = false := rfl
    simp [renewedRequest, isCategory_requestFor, hsilent]
  have hreached : ∃ d ∈ renewedRequest,
      globalTarget ∈ targetsOf ⟨"html", ["screen"]⟩ intrusiveSchema d ∧
        d.parsedSelector.isCategory = true :=
    ⟨{ selector := "macro:empty" }, by simp [renewedRequest], by decide +kernel, hcategory⟩
  have hcategories : renewedRequest.filter (fun d => d.parsedSelector.isCategory) =
      [{ selector := "macro:empty" }] := by
    simp [renewedRequest, isCategory_requestFor, hcategory]
  have hresolved : [({ selector := "macro:empty" } : Descriptor)].findSome?
      (targetFault? ⟨"html", ["screen"]⟩ intrusiveSchema) = none := by
    decide +kernel
  obtain ⟨unsorted, hunsorted⟩ : ∃ unsorted,
      buildUnsorted ⟨"html", ["screen"]⟩ intrusiveSchema renewedRequest = .ok unsorted := by
    rw [buildUnsorted, foldlM_expand_heldBack, hcategories, foldlM_expand, hresolved]
    exact ⟨_, rfl⟩
  have hbuild := build_eq_map_buildUnsorted ⟨"html", ["screen"]⟩ intrusiveSchema renewedRequest
  rw [hunsorted] at hbuild
  have hsorts : (ofLiterals renewedRequest).globalFlag sortResourcesParameter false = true := by
    rw [renewedRequest, globalFlag_ofLiterals_requestFor]
    decide +kernel
  have hleads : Leads ⟨"html", ["screen"]⟩ sortResourcesParameter (globals renewedRequest)
      (requestFor "html" "true") := by
    rw [hglobals]
    refine ⟨states_requestFor .., [requestFor "" "true", requestFor "screen" "false"], [], rfl, ?_,
      by simp⟩
    simp only [List.forall_mem_cons, moreSpecific_requestFor_iff]
    decide +kernel
  refine ⟨_, hbuild, hnone, hreached,
    (((sorting_option_of_build hbuild).2 hnone).1).2 ⟨hsorts, _, hleads, ?_⟩⟩
  rw [turnsOn_requestFor]
  decide +kernel

/-- A request that is taken back for the base profile. -/
def retractedRequest : List Descriptor :=
  [requestFor "" "true", requestFor "html" "false"]

/-- A request for the elements of a category. -/
def categoryRequest : Descriptor :=
  Descriptor.setParameter { selector := "macro:empty" } sortResourcesParameter "true"

/-- The option may read differently from the finished table. It reads as off after a sort if a
second request takes the first one back for the base profile. It reads as on without a sort if the
only request is made for a category that the schema puts an element with the reserved name into. -/
theorem sorting_option_reread_differs :
    (∃ table, build ⟨"html", []⟩ none retractedRequest = .ok table ∧
      (ofLiterals retractedRequest).globalFlag sortResourcesParameter false = true ∧
      table.globalFlag sortResourcesParameter false = false) ∧
    ∃ table, build ⟨"html", []⟩ intrusiveSchema [categoryRequest] = .ok table ∧
      (ofLiterals [categoryRequest]).globalFlag sortResourcesParameter false = false ∧
      table.globalFlag sortResourcesParameter false = true := by
  constructor
  · have hglobals : ∀ d ∈ retractedRequest, d.parsedSelector = .globals := by
      simp [retractedRequest, parsedSelector_requestFor]
    have hbuild := build_of_globals ⟨"html", []⟩ none hglobals
    have hsorts : (ofLiterals retractedRequest).globalFlag sortResourcesParameter false = true := by
      rw [retractedRequest, globalFlag_ofLiterals_requestFor]
      decide +kernel
    have hleads : Leads ⟨"html", []⟩ sortResourcesParameter retractedRequest
        (requestFor "html" "false") := by
      refine ⟨states_requestFor .., [requestFor "" "true"], [], rfl, ?_, by simp⟩
      simp only [List.forall_mem_cons, moreSpecific_requestFor_iff]
      decide +kernel
    rw [if_pos hsorts] at hbuild
    refine ⟨_, hbuild, hsorts, Bool.eq_false_iff.2 fun hread => ?_⟩
    rw [globalFlag_sort_iff, get_ofLiterals, ← globals, globals_eq_self hglobals] at hread
    simp only [leads_eraseDups] at hread
    rw [hleads.exists_iff, turnsOn_requestFor] at hread
    exact absurd hread (by decide +kernel)
  · refine ⟨⟨[(globalTarget, [categoryRequest])]⟩, ?_, ?_, ?_⟩
    · decide +kernel
    · decide +kernel
    · decide +kernel

end DescriptorTable

end DeliveryPipeline
