import DeliveryPipeline.Profile
import DeliveryPipeline.Proofs.Text.Pieces

/-!
# What a profile expression names

What an expression names can be told from its text: the names stand between the commas. Whether it
is universal, whether it applies to a profile set, and how specific it is for that set, are three
readings of these names, and they agree.
-/
namespace DeliveryPipeline

namespace ProfileSet

theorem contains_iff {p : ProfileSet} {name : String} :
    p.contains name = true ↔ name = p.base ∨ name ∈ p.subProfiles := by
  rw [contains, Bool.or_eq_true, beq_iff_eq, List.contains_iff_mem, eq_comm]

/-- One more sub-profile adds its name, and takes none away. -/
theorem contains_addSubProfile_iff {p : ProfileSet} {name other : String} :
    (p.addSubProfile name).contains other = true ↔ p.contains other = true ∨ other = name := by
  rw [addSubProfile]
  split
  next h =>
    refine ⟨.inl, ?_⟩
    rintro (hother | rfl)
    · exact hother
    · exact contains_iff.2 (.inr h)
  next => simp [contains_iff, or_assoc]

end ProfileSet

namespace ProfileExpression

/-- A name stands between two commas or an end of the text, the blanks around it aside. -/
def Names (raw name : String) : Prop :=
  name ≠ "" ∧ ∃ piece ∈ raw.toList.splitOnP (· == ','), Text.trimChars piece = name.toList

/-- No name is given, or the wildcard is among them. -/
def IsUniversal (raw : String) : Prop :=
  (∀ name, ¬ Names raw name) ∨ Names raw wildcardName

section Parse

variable {raw : String}

theorem names_iff {name : String} : Names raw name ↔ name ∈ Text.commaList raw :=
  Text.mem_commaList_iff.symm

theorem parse_of_isUniversal (h : IsUniversal raw) : parse raw = universal := by
  refine if_pos ?_
  rcases h with hnone | hstar
  · have hnil : Text.commaList raw = [] :=
      List.eq_nil_iff_forall_not_mem.2 fun name hname => hnone name (names_iff.2 hname)
    simp [hnil]
  · simp [names_iff.1 hstar]

theorem parse_of_not_isUniversal (h : ¬ IsUniversal raw) :
    parse raw = oneOf (Text.commaList raw) := by
  refine if_neg ?_
  rw [Bool.or_eq_true, List.isEmpty_iff, List.contains_iff_mem]
  rintro (hnil | hstar)
  · refine h (.inl fun name hname => ?_)
    rw [names_iff, hnil] at hname
    exact List.not_mem_nil hname
  · exact h (.inr (names_iff.2 hstar))

theorem parse_eq_universal_iff : parse raw = universal ↔ IsUniversal raw := by
  refine ⟨fun h => ?_, parse_of_isUniversal⟩
  by_contra hnot
  rw [parse_of_not_isUniversal hnot] at h
  contradiction

end Parse

section Readings

variable {raw : String} {p : ProfileSet}

theorem any_contains_iff : (Text.commaList raw).any p.contains = true ↔
    Names raw p.base ∨ ∃ name ∈ p.subProfiles, Names raw name := by
  simp only [List.any_eq_true, ProfileSet.contains_iff, names_iff]
  constructor
  · rintro ⟨name, hname, rfl | hsub⟩
    · exact .inl hname
    · exact .inr ⟨name, hsub, hname⟩
  · rintro (hbase | ⟨name, hsub, hname⟩)
    · exact ⟨_, hbase, .inl rfl⟩
    · exact ⟨name, hname, .inr hsub⟩

/-- The ways in which an expression can stand to a profile set. -/
theorem reading_cases (raw : String) (p : ProfileSet) :
    (IsUniversal raw ∧ (parse raw).appliesTo p = true ∧ (parse raw).specificity p = 0) ∨
    (¬ IsUniversal raw ∧ Names raw p.base ∧
      (parse raw).appliesTo p = true ∧ (parse raw).specificity p = 2) ∨
    (¬ IsUniversal raw ∧ ¬ Names raw p.base ∧ (∃ name ∈ p.subProfiles, Names raw name) ∧
      (parse raw).appliesTo p = true ∧ (parse raw).specificity p = 1) ∨
    (¬ IsUniversal raw ∧ ¬ Names raw p.base ∧ (¬ ∃ name ∈ p.subProfiles, Names raw name) ∧
      (parse raw).appliesTo p = false ∧ (parse raw).specificity p = 0) := by
  by_cases huniversal : IsUniversal raw
  · rw [parse_of_isUniversal huniversal]
    exact .inl ⟨huniversal, rfl, rfl⟩
  have happlies : (parse raw).appliesTo p = true ↔
      Names raw p.base ∨ ∃ name ∈ p.subProfiles, Names raw name := by
    rw [parse_of_not_isUniversal huniversal, appliesTo, any_contains_iff]
  have hrank : (parse raw).specificity p = if (Text.commaList raw).contains p.base then 2
      else if (parse raw).appliesTo p then 1 else 0 := by
    rw [parse_of_not_isUniversal huniversal]
    rfl
  have hmem : p.base ∈ Text.commaList raw ↔ Names raw p.base := names_iff.symm
  by_cases hbase : Names raw p.base
  · have ha := happlies.2 (.inl hbase)
    exact .inr (.inl ⟨huniversal, hbase, ha, by simp [hrank, hmem, hbase]⟩)
  by_cases hsub : ∃ name ∈ p.subProfiles, Names raw name
  · have ha := happlies.2 (.inr hsub)
    exact .inr (.inr (.inl ⟨huniversal, hbase, hsub, ha, by simp [hrank, hmem, hbase, ha]⟩))
  · have ha : (parse raw).appliesTo p = false := by
      rw [← Bool.not_eq_true, happlies]
      exact not_or.2 ⟨hbase, hsub⟩
    exact .inr (.inr (.inr ⟨huniversal, hbase, hsub, ha, by simp [hrank, hmem, hbase, ha]⟩))

theorem specificity_eq_two_iff :
    (parse raw).specificity p = 2 ↔ ¬ IsUniversal raw ∧ Names raw p.base := by
  rcases reading_cases raw p with h | h | h | h <;> simp [h]

theorem specificity_eq_one_iff : (parse raw).specificity p = 1 ↔
    ¬ IsUniversal raw ∧ ¬ Names raw p.base ∧ ∃ name ∈ p.subProfiles, Names raw name := by
  rcases reading_cases raw p with h | h | ⟨huniversal, hbase, hsub, -, hrank⟩ | h
  · simp [h]
  · simp [h]
  · exact iff_of_true hrank ⟨huniversal, hbase, hsub⟩
  · simp [h]

theorem appliesTo_iff : (parse raw).appliesTo p = true ↔
    0 < (parse raw).specificity p ∨ IsUniversal raw := by
  rcases reading_cases raw p with h | h | h | h <;> simp [h]

/-- An expression that applies goes on to apply with one more sub-profile. -/
theorem appliesTo_addSubProfile {e : ProfileExpression} (h : e.appliesTo p = true)
    (name : String) : e.appliesTo (p.addSubProfile name) = true := by
  cases e with
  | universal => rfl
  | oneOf names =>
    obtain ⟨other, hother, hcontains⟩ := List.any_eq_true.1 h
    exact List.any_eq_true.2
      ⟨other, hother, ProfileSet.contains_addSubProfile_iff.2 (.inl hcontains)⟩

end Readings

end ProfileExpression

end DeliveryPipeline
