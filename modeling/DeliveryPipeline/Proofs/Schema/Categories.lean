import DeliveryPipeline.Proofs.DescriptorTable.Order
import DeliveryPipeline.Proofs.Schema.Declarations
import Mathlib.Data.List.Nodup

/-!
# Sharing the elements out

A category and its complement share the declared elements out between them, since no element is
declared twice. So the table of two descriptors, one of each, lists exactly one of them under every
element.
-/
namespace DeliveryPipeline

namespace Category

/-- The category of all other elements. -/
def complement : Category → Category
  | empty => notEmpty
  | notEmpty => empty
  | any => notAny
  | notAny => any
  | mixed => notMixed
  | notMixed => mixed
  | textOnly => notTextOnly
  | notTextOnly => textOnly

theorem complement_ne (c : Category) : c.complement ≠ c := by
  cases c <;> decide

/-- The categories of a single content model. -/
def positives : List Category := [empty, any, mixed, textOnly]

end Category

namespace ContentModel

theorem isIn_complement (m : ContentModel) (c : Category) :
    m.isIn c.complement = !m.isIn c := by
  cases c <;> simp [Category.complement, isIn, bne]

/-- A content model has one category of its own at most. -/
theorem eq_of_isIn_positives {m : ContentModel} {c c' : Category} (hc : c ∈ Category.positives)
    (hc' : c' ∈ Category.positives) (h : m.isIn c = true) (h' : m.isIn c' = true) : c = c' := by
  simp only [Category.positives, List.mem_cons, List.not_mem_nil, or_false] at hc hc'
  rcases hc with rfl | rfl | rfl | rfl <;> rcases hc' with rfl | rfl | rfl | rfl <;>
    simp_all [isIn]

end ContentModel

/-- The selector of the descriptor names the category. -/
def Descriptor.IsOf (d : Descriptor) (c : Category) : Prop :=
  ∃ name, d.parsedSelector = .category name ∧ Category.parse? name = some c

theorem Descriptor.isOf_of_selector {d : Descriptor} {c : Category}
    (h : d.selector = "macro:" ++ c.name) : d.IsOf c := by
  refine ⟨c.name, ?_, ?_⟩
  · rw [parsedSelector, h]
    cases c <;> decide +kernel
  · cases c <;> decide +kernel

theorem Descriptor.IsOf.isCategory {d : Descriptor} {c : Category} (h : d.IsOf c) :
    d.parsedSelector.isCategory = true := by
  obtain ⟨name, hselector, -⟩ := h
  rw [hselector]
  rfl

theorem Descriptor.IsOf.unique {d : Descriptor} {c c' : Category} (h : d.IsOf c)
    (h' : d.IsOf c') : c = c' := by
  obtain ⟨name, hselector, hparse⟩ := h
  obtain ⟨name', hselector', hparse'⟩ := h'
  rw [hselector, Selector.category.injEq] at hselector'
  rw [← hselector', hparse] at hparse'
  exact Option.some.inj hparse'

namespace Dtd

variable {dtd : Dtd} {text name : String} {c c' : Category}

theorem mem_classify_iff :
    name ∈ dtd.classify c ↔ ∃ m, (name, m) ∈ dtd.elements ∧ m.isIn c = true := by
  simp [classify]

theorem classify_sublist (dtd : Dtd) (c : Category) :
    (dtd.classify c).Sublist (dtd.elements.map (·.1)) :=
  List.filter_sublist.map _

/-- A category and its complement hold each declaration once. -/
theorem classify_append_perm (dtd : Dtd) (c : Category) :
    (dtd.classify c ++ dtd.classify c.complement).Perm (dtd.elements.map (·.1)) := by
  have hfilter := List.filter_append_perm (fun e => e.2.isIn c) dtd.elements
  simp only [classify, ContentModel.isIn_complement, ← List.map_append]
  exact hfilter.map _

/-- Where names are distinct, no element is in two categories of a single model. -/
theorem disjoint_positives (hnodup : (dtd.elements.map (·.1)).Nodup) (hc : c ∈ Category.positives)
    (hc' : c' ∈ Category.positives) (hne : c ≠ c') :
    (dtd.classify c).Disjoint (dtd.classify c') := by
  intro name hname hname'
  obtain ⟨m, hm, hin⟩ := mem_classify_iff.1 hname
  obtain ⟨m', hm', hin'⟩ := mem_classify_iff.1 hname'
  have hsame := List.inj_on_of_nodup_map hnodup hm hm' rfl
  obtain rfl : m = m' := (Prod.mk.inj hsame).2
  exact hne (ContentModel.eq_of_isIn_positives hc hc' hin hin')

end Dtd

namespace DescriptorTable

variable {p : ProfileSet} {s : Schema} {d : Descriptor} {ds : List Descriptor} {c : Category}

theorem targetsFor_of_isOf (h : d.IsOf c) (p : ProfileSet) (s : Schema) :
    targetsFor p (some s) d = .ok (s.classify c) := by
  obtain ⟨name, hselector, hparse⟩ := h
  rw [targetsFor, hselector]
  simp only [Category.parse, hparse]
  rfl

theorem targetsOf_of_isOf (h : d.IsOf c) (p : ProfileSet) (s : Schema) :
    targetsOf p (some s) d = s.classify c := by
  rw [targetsOf, targetsFor_of_isOf h]
  rfl

/-- Only a global parameter asks for sorted lists, and a category is not among these. -/
theorem asksForSorting_of_isOf (h : ∀ d ∈ ds, ∃ c, d.IsOf c) : asksForSorting ds = false := by
  have hnone : (ds.filter fun d => d.parsedSelector.target? = some globalTarget) = [] := by
    refine List.filter_eq_nil_iff.2 fun d hd => ?_
    obtain ⟨c, hc⟩ := h d hd
    simp [Selector.target?_of_isCategory hc.isCategory]
  simp only [asksForSorting, hnone]
  rfl

theorem categoriesLast_of_isOf (h : ∀ d ∈ ds, ∃ c, d.IsOf c) : categoriesLast ds = ds := by
  have hall : ∀ d ∈ ds, d.parsedSelector.isCategory = true := by
    intro d hd
    obtain ⟨c, hc⟩ := h d hd
    exact hc.isCategory
  rw [categoriesLast, List.filter_eq_nil_iff.2 (by simpa using hall), List.filter_eq_self.2 hall,
    List.nil_append]

/-- With a schema a table of categories is built, and it lists them as they come. -/
theorem exists_build_of_isOf (h : ∀ d ∈ ds, ∃ c, d.IsOf c) (p : ProfileSet) (s : Schema) :
    ∃ table, build p (some s) ds = .ok table ∧
      table.keys = (ds.flatMap (targetsOf p (some s))).eraseDups ∧
      ∀ target, table.get target =
        (ds.filter fun d => target ∈ targetsOf p (some s) d).eraseDups := by
  have hfault : ds.findSome? (targetFault? p (some s)) = none := by
    refine List.findSome?_eq_none_iff.2 fun d hd => ?_
    obtain ⟨c, hc⟩ := h d hd
    exact targetFault?_eq_none_iff.2 ⟨_, targetsFor_of_isOf hc p s⟩
  obtain ⟨table, hbuild⟩ : ∃ table, build p (some s) ds = .ok table := by
    rw [build_eq]
    simp only [hfault]
    exact ⟨_, rfl⟩
  refine ⟨table, hbuild, ?_, fun target => ?_⟩
  · rw [keys_of_build hbuild, targetOrder, categoriesLast_of_isOf h]
  · rw [get_of_build hbuild (asksForSorting_of_isOf h), listing, categoriesLast_of_isOf h]

/-- Two categories without a common element share the table. -/
theorem exists_build_of_disjoint {e : Descriptor} {c' : Category} (hd : d.IsOf c) (he : e.IsOf c')
    (hnodup : (s.classify c ++ s.classify c').Nodup) (p : ProfileSet) :
    ∃ table, build p (some s) [d, e] = .ok table ∧
      table.keys = s.classify c ++ s.classify c' ∧
      ∀ name, (name ∈ s.classify c → table.get name = [d]) ∧
        (name ∈ s.classify c' → table.get name = [e]) := by
  have hall : ∀ x ∈ [d, e], ∃ c, x.IsOf c := by
    simpa using ⟨⟨c, hd⟩, ⟨c', he⟩⟩
  obtain ⟨table, hbuild, hkeys, hget⟩ := exists_build_of_isOf hall p s
  have hdisjoint := List.disjoint_of_nodup_append hnodup
  refine ⟨table, hbuild, ?_, fun name => ⟨fun hname => ?_, fun hname => ?_⟩⟩
  · rw [hkeys]
    simp only [List.flatMap_cons, List.flatMap_nil, List.append_nil, targetsOf_of_isOf hd,
      targetsOf_of_isOf he]
    exact eraseDups_of_nodup hnodup
  · have hother : name ∉ s.classify c' := hdisjoint hname
    rw [hget]
    simp [targetsOf_of_isOf hd, targetsOf_of_isOf he, hname, hother, List.eraseDups_cons]
  · have hother : name ∉ s.classify c := fun h => hdisjoint h hname
    rw [hget]
    simp [targetsOf_of_isOf hd, targetsOf_of_isOf he, hname, hother, List.eraseDups_cons]

end DescriptorTable

namespace Dtd

/-- What is read puts every element once into each category or into its complement, in declaration
order, and into at most one category of a single model. The table of a descriptor of the category
and one of the complement has every element as a target, the elements of the category first, and
lists under it the one descriptor or the other. -/
theorem elements_shared_out {text : String} {dtd : Dtd} (h : parse text = .ok dtd) :
    let names := dtd.elements.map (·.1)
    (∀ c, (dtd.classify c).Disjoint (dtd.classify c.complement) ∧
      (dtd.classify c).Nodup ∧ (dtd.classify c).Sublist names ∧
      (dtd.classify c ++ dtd.classify c.complement).Perm names ∧
      ∀ name ∈ names, (dtd.classify c ++ dtd.classify c.complement).count name = 1) ∧
    (∀ c ∈ Category.positives, ∀ c' ∈ Category.positives, c ≠ c' →
      (dtd.classify c).Disjoint (dtd.classify c')) ∧
    ∀ p d e c, d.IsOf c → e.IsOf c.complement → d ≠ e ∧
      ∃ table, DescriptorTable.build p (some dtd.schema) [d, e] = .ok table ∧
        table.keys = dtd.classify c ++ dtd.classify c.complement ∧
        ∀ name ∈ names, name ∈ table.keys ∧
          table.get name = if name ∈ dtd.classify c then [d] else [e] := by
  intro names
  have hnodup : names.Nodup := (parse_eq_ok_iff.1 h).2.1
  have hshared (c : Category) : (dtd.classify c ++ dtd.classify c.complement).Nodup :=
    (dtd.classify_append_perm c).nodup_iff.2 hnodup
  refine ⟨fun c => ⟨List.disjoint_of_nodup_append (hshared c), (List.nodup_append.1 (hshared c)).1,
    dtd.classify_sublist c, dtd.classify_append_perm c, fun name hname => ?_⟩,
    fun c hc c' hc' => disjoint_positives hnodup hc hc', fun p d e c hd he => ⟨?_, ?_⟩⟩
  · rw [(dtd.classify_append_perm c).count_eq]
    exact List.count_eq_one_of_mem hnodup hname
  · rintro rfl
    exact c.complement_ne (he.unique hd)
  · obtain ⟨table, hbuild, hkeys, hget⟩ :=
      DescriptorTable.exists_build_of_disjoint (s := dtd.schema) hd he (hshared c) p
    refine ⟨table, hbuild, hkeys, fun name hname => ?_⟩
    have hshare : name ∈ dtd.classify c ++ dtd.classify c.complement :=
      (dtd.classify_append_perm c).mem_iff.2 hname
    refine ⟨hkeys ▸ hshare, ?_⟩
    split
    next hin => exact (hget name).1 hin
    next hout => exact (hget name).2 ((List.mem_append.1 hshare).resolve_left hout)

def emptyDescriptor : Descriptor := { selector := "macro:empty" }

def notEmptyDescriptor : Descriptor := { selector := "macro:not-empty" }

theorem elements_shared_out_of_breaks :
    ∃ dtd, parse "<!ELEMENT br EMPTY><!ELEMENT p ANY><!ELEMENT hr EMPTY>" = .ok dtd ∧
      ∃ table, DescriptorTable.build ⟨"html", []⟩ (some dtd.schema)
          [emptyDescriptor, notEmptyDescriptor] = .ok table ∧
        table.keys = ["br", "hr", "p"] ∧ table.get "hr" = [emptyDescriptor] ∧
        table.get "p" = [notEmptyDescriptor] := by
  have hparse : parse "<!ELEMENT br EMPTY><!ELEMENT p ANY><!ELEMENT hr EMPTY>" =
      .ok ⟨[("br", .empty), ("p", .any), ("hr", .empty)]⟩ := by
    decide +kernel
  obtain ⟨-, -, hpairs⟩ := elements_shared_out hparse
  have hempty : emptyDescriptor.IsOf .empty := Descriptor.isOf_of_selector (by decide +kernel)
  have hnotEmpty : notEmptyDescriptor.IsOf .notEmpty :=
    Descriptor.isOf_of_selector (by decide +kernel)
  obtain ⟨-, table, hbuild, hkeys, hlisted⟩ :=
    hpairs ⟨"html", []⟩ emptyDescriptor notEmptyDescriptor .empty hempty hnotEmpty
  refine ⟨_, hparse, table, hbuild, hkeys, ?_, ?_⟩
  · exact (hlisted "hr" (by decide +kernel)).2.trans (if_pos (by decide +kernel))
  · exact (hlisted "p" (by decide +kernel)).2.trans (if_neg (by decide +kernel))

end Dtd

end DeliveryPipeline
