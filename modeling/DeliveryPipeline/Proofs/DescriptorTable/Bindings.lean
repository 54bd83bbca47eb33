import DeliveryPipeline.Proofs.DescriptorTable.Order
import DeliveryPipeline.Proofs.Grouping.Transpose
import DeliveryPipeline.Proofs.Specificity.Ranking
import Mathlib.Algebra.GroupWithZero.Nat

/-!
# The bindings of a table

The bindings say the same as the table, descriptor by descriptor. Every descriptor that is listed is
bound once, in the order in which the table lists descriptors first, to the targets that list it. A
table has each target once, with a list that is not empty and repeats nothing, so the bindings have
as many targets as the lists have descriptors.
-/
namespace DeliveryPipeline.DescriptorTable

variable {t : DescriptorTable} {d : Descriptor}

/-- The lists of a table are what is found under its targets. -/
theorem Reachable.get_eq (h : t.Reachable) {group : String × List Descriptor}
    (hgroup : group ∈ t.groups) : t.get group.1 = group.2 :=
  Grouping.get_of_mem_groups h.nodup_keys hgroup

theorem Reachable.nodup_list (h : t.Reachable) :
    ∀ group ∈ t.groups, group.2.Nodup := by
  intro group hgroup
  rw [← h.get_eq hgroup]
  exact h.nodup_get group.1

/-- What the lists of a table have is found under some target. -/
theorem Reachable.mem_lists_iff (h : t.Reachable) :
    d ∈ t.groups.flatMap (·.2) ↔ ∃ target, d ∈ t.get target := by
  simp only [← Grouping.mem_pairs_iff h.nodup_keys]
  rw [← Grouping.map_snd_pairs, List.mem_map]
  simp only [Prod.exists, exists_eq_right]

/-- The bindings of a reachable table are the table turned around: its descriptors, each once in the
order in which the lists have them first, and with each the targets that list it, in the order of
the table. The targets that are bound are as many as the descriptors in the lists, of which none is
empty or repeats a descriptor. -/
theorem Reachable.bindings_transpose (h : t.Reachable) :
    (t.bindings.map (·.1) = (t.groups.flatMap (·.2)).eraseDups ∧ (t.bindings.map (·.1)).Nodup ∧
      ∀ d, d ∈ t.bindings.map (·.1) ↔ ∃ target, d ∈ t.get target) ∧
    (∀ b ∈ t.bindings, b.2 = t.keys.filter (fun target => b.1 ∈ t.get target) ∧ b.2.Nodup) ∧
    (t.bindings.map (·.2.length)).sum = (t.groups.map (·.2.length)).sum ∧
    ∀ group ∈ t.groups, t.get group.1 = group.2 ∧ group.2.Nodup ∧ group.2 ≠ [] := by
  have hfirst : t.bindings.map (·.1) = (t.groups.flatMap (·.2)).eraseDups :=
    Grouping.keys_transpose t
  refine ⟨⟨hfirst, ?_, fun d => ?_⟩, fun b hb => ?_, ?_, fun group hgroup => ?_⟩
  · rw [hfirst]
    exact nodup_eraseDups _
  · rw [hfirst, List.mem_eraseDups, h.mem_lists_iff]
  · have htargets := Grouping.keys_of_mem_transpose hb
    rw [Grouping.keysOf_eq_filter h.nodup_keys h.nodup_list] at htargets
    refine ⟨htargets, ?_⟩
    rw [htargets]
    exact h.nodup_keys.filter _
  · have hpairs := Grouping.length_pairs_transpose t
    simpa only [bindings, Grouping.pairs, List.length_flatMap, List.length_map] using hpairs
  · exact ⟨h.get_eq hgroup, h.nodup_list group hgroup, h.noEmptyList group hgroup⟩

/-- A descriptor of every element and one of breaks within paragraphs, both for paragraphs. -/
def paragraphTable : DescriptorTable :=
  (insert Grouping.empty "p" { selector := "*" }).insert "p" { selector := "p br" }

/-- The paragraphs sorted, and then one of the descriptors listed for a second target, twice. -/
def sharedTable : DescriptorTable :=
  ((paragraphTable.sort ⟨"html", []⟩).insert "br" { selector := "p br" }).insert "br"
    { selector := "p br" }

theorem sharedTable_eq :
    sharedTable = ⟨[("p", [{ selector := "p br" }, { selector := "*" }]),
      ("br", [{ selector := "p br" }])]⟩ := by
  have hsorted : [{ selector := "p br" }, { selector := "*" }] = sortBySpecificity ⟨"html", []⟩ id
      [({ selector := "*" } : Descriptor), { selector := "p br" }] :=
    ranked_iff.1 ⟨by decide +kernel, by decide +kernel, by decide +kernel⟩
  have hparagraphs : paragraphTable.sort ⟨"html", []⟩ =
      ⟨[("p", [{ selector := "p br" }, { selector := "*" }])]⟩ := by
    rw [hsorted]
    rfl
  rw [sharedTable, hparagraphs]
  decide +kernel

/-- The shared descriptor is bound once, to both targets, and there are three bound targets. -/
theorem bindings_of_sharedTable :
    sharedTable.Reachable ∧
    sharedTable.bindings.map (·.1) = [{ selector := "p br" }, { selector := "*" }] ∧
    (∀ b ∈ sharedTable.bindings, b.1 = { selector := "p br" } → b.2 = ["p", "br"]) ∧
    (sharedTable.bindings.map (·.2.length)).sum = 3 := by
  have hreachable : sharedTable.Reachable :=
    .insert _ _ (.insert _ _ (.sort _ (.insert _ _ (.insert _ _ .empty))))
  obtain ⟨⟨hfirst, -⟩, htargets, hcount, -⟩ := Reachable.bindings_transpose hreachable
  refine ⟨hreachable, ?_, fun b hb hshared => ?_, ?_⟩
  · rw [hfirst, sharedTable_eq]
    decide +kernel
  · rw [(htargets b hb).1, hshared, sharedTable_eq]
    decide +kernel
  · rw [hcount, sharedTable_eq]
    rfl

end DeliveryPipeline.DescriptorTable
