import DeliveryPipeline.Proofs.Text.Pieces
import DeliveryPipeline.Selector

/-!
# Selectors of separators alone

A selector without a target of its own is a category, or a path without steps. The paths without
steps are those of selectors that hold a slash and, blanks aside, nothing but slashes.
-/
namespace DeliveryPipeline

namespace Selector

/-- The text holds a slash, and otherwise slashes and blanks alone. -/
def OnlySeparators (raw : String) : Prop :=
  '/' ∈ raw.toList ∧ ∀ c ∈ raw.toList, isSeparator c = true

instance (raw : String) : Decidable (OnlySeparators raw) :=
  inferInstanceAs (Decidable (_ ∧ _))

theorem isSeparator_of_isBlank {c : Char} (h : Text.isBlank c = true) : isSeparator c = true := by
  simp [isSeparator, h]

/-- Separators have no case. -/
theorem toLower_of_isSeparator {c : Char} (h : isSeparator c = true) : c.toLower = c := by
  have hupper : ¬ (c.val ≥ 'A'.val ∧ c.val ≤ 'Z'.val) := by
    rintro ⟨hA, hZ⟩
    have hlow : 65 ≤ c.toNat := hA
    have hhigh : c.toNat ≤ 90 := hZ
    simp only [isSeparator, Bool.or_eq_true, beq_iff_eq] at h
    rcases h with h | rfl
    · simp only [Text.isBlank, Bool.or_eq_true, Bool.and_eq_true, decide_eq_true_eq,
        beq_iff_eq] at h
      omega
    · contradiction
  exact dif_neg hupper

section Separators

variable {text : String} {c : Char} {cs : List Char}

theorem not_sameIgnoringCase_of_isSeparator (htext : text.toList = c :: cs)
    (hc : isSeparator c = true) : Text.sameIgnoringCase text globalTarget = false := by
  rw [Text.sameIgnoringCase, beq_eq_false_iff_ne]
  intro hsame
  have hglobal : globalTarget.toLower.toList.head? = some 'g' := by decide +kernel
  rw [← hsame, Text.toList_toLower, htext, List.map_cons, toLower_of_isSeparator hc,
    List.head?_cons, Option.some.injEq] at hglobal
  rw [hglobal] at hc
  exact absurd hc (by decide)

theorem after?_macro_of_isSeparator (htext : text.toList = c :: cs) (hc : isSeparator c = true) :
    Text.after? "macro:" text = none := by
  rw [Text.after?, Option.map_eq_none_iff, Option.eq_none_iff_forall_not_mem]
  intro tail htail
  have hlead := Text.afterPrefix?_eq_some_iff.1 htail
  rw [htext] at hlead
  rw [(List.cons.inj hlead).1] at hc
  exact absurd hc (by decide)

end Separators

theorem parse_of_onlySeparators {raw : String} (h : OnlySeparators raw) :
    parse raw = element [] := by
  obtain ⟨hslash, hseparators⟩ := h
  have hall : ∀ c ∈ (Text.trim raw).toList, isSeparator c = true := by
    rw [Text.toList_trim, Text.forall_mem_trimChars_iff fun _ => isSeparator_of_isBlank]
    exact hseparators
  have hne : Text.trim raw ≠ "" := by
    rw [Ne, Text.trim_eq_empty_iff]
    exact fun hblank => absurd (hblank '/' hslash) (by decide)
  obtain ⟨c, cs, htext⟩ := List.exists_cons_of_ne_nil (mt String.toList_eq_nil_iff.1 hne)
  have hc : isSeparator c = true := hall c (by rw [htext]; exact List.mem_cons_self)
  have hstar : Text.trim raw ≠ wildcardName := by
    intro hstar
    rw [hstar] at hall
    exact absurd (hall '*' (by decide)) (by decide)
  simp [parse, hne, hstar, not_sameIgnoringCase_of_isSeparator htext hc,
    after?_macro_of_isSeparator htext hc, (Text.words_eq_nil_iff ..).2 hall]

/-- A path consists of the words of a text that is not blank. -/
theorem path_of_parse {raw : String} {path : List String} (h : parse raw = element path) :
    Text.trim raw ≠ "" ∧ Text.words isSeparator (Text.trim raw) = path := by
  grind [parse]

theorem onlySeparators_of_parse {raw : String} (h : parse raw = element []) :
    OnlySeparators raw := by
  obtain ⟨hne, hwords⟩ := path_of_parse h
  have hall : ∀ c ∈ raw.toList, isSeparator c = true := by
    rwa [Text.words_eq_nil_iff, Text.toList_trim,
      Text.forall_mem_trimChars_iff fun _ => isSeparator_of_isBlank] at hwords
  refine ⟨?_, hall⟩
  -- not all is blank, so one of the separators is a slash
  by_contra hslash
  refine hne ((Text.trim_eq_empty_iff raw).2 fun c hc => ?_)
  have hor := hall c hc
  rw [isSeparator, Bool.or_eq_true, beq_iff_eq] at hor
  exact hor.resolve_right fun heq => hslash (heq ▸ hc)

/-- The paths without steps are those of selectors that hold separators alone. -/
theorem parse_eq_element_nil_iff (raw : String) :
    parse raw = element [] ↔ OnlySeparators raw :=
  ⟨onlySeparators_of_parse, parse_of_onlySeparators⟩

/-- A selector that is no category has a target unless it holds separators alone. -/
theorem target?_eq_none_iff {raw : String} (h : ∀ name, parse raw ≠ category name) :
    (parse raw).target? = none ↔ OnlySeparators raw := by
  rw [← parse_eq_element_nil_iff]
  cases hparse : parse raw with
  | category name => exact absurd hparse (h name)
  | _ => simp [target?]

end Selector

end DeliveryPipeline
