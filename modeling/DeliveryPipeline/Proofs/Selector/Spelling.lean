import DeliveryPipeline.Proofs.Selector.Separators
import DeliveryPipeline.Proofs.Text.Pieces
import DeliveryPipeline.Specificity

/-!
# Spellings of a path

A path can be spelled in many ways: between two steps stand any separators, at least one, and before
and after the path any number of them. All spellings of a path are read as its steps, and none of
them is mistaken for a selector of another kind. So the spelling makes no difference to the target
and the rank of a descriptor.
-/
namespace DeliveryPipeline.Selector

/-- The texts that spell a path of one step or more. -/
inductive Spells : List String → List Char → Prop
  | last {step : String} {before after : List Char}
    (hbefore : ∀ c ∈ before, isSeparator c = true) (hafter : ∀ c ∈ after, isSeparator c = true) :
    Spells [step] (before ++ step.toList ++ after)
  | cons {step : String} {path : List String} {before gap rest : List Char}
    (hbefore : ∀ c ∈ before, isSeparator c = true) (hne : gap ≠ [])
    (hgap : ∀ c ∈ gap, isSeparator c = true) (hrest : Spells path rest) :
    Spells (step :: path) (before ++ step.toList ++ gap ++ rest)

/-- Steps that can be spelled, and of which no spelling is a selector of another kind. -/
structure IsPath (path : List String) : Prop where
  ne_nil : path ≠ []
  steps : ∀ step ∈ path, step ≠ "" ∧ ∀ c ∈ step.toList, isSeparator c = false
  /-- The first step does not begin like a category. -/
  not_category : ∀ step ∈ path.head?, ¬ "macro:".toList <+: step.toList
  not_wildcard : path ≠ [wildcardName]
  /-- The path is not the reserved name alone, in any ASCII case. -/
  not_globals : ∀ step, path = [step] → step.toLower ≠ globalTarget

section Words

variable {path : List String} {step raw text : String} {cs : List Char}

/-- The steps of a path are the words of its spellings. -/
theorem Spells.chunks_eq (h : Spells path cs)
    (hsteps : ∀ step ∈ path, step ≠ "" ∧ ∀ c ∈ step.toList, isSeparator c = false) :
    Text.chunks isSeparator cs = path.map String.toList := by
  induction h with
  | @last step before after hbefore hafter =>
    obtain ⟨⟨hne, hstep⟩, -⟩ := List.forall_mem_cons.1 hsteps
    rw [Text.chunks_append_gap hafter, Text.chunks_gap_append hbefore,
      Text.chunks_word (mt String.toList_eq_nil_iff.1 hne) hstep, List.map_singleton]
  | @cons step path before gap rest hbefore hne hgap hrest ih =>
    obtain ⟨⟨hstepne, hstep⟩, hsteps⟩ := List.forall_mem_cons.1 hsteps
    have hhead : ∀ c ∈ (gap ++ rest).head?, isSeparator c = true := by
      cases gap with
      | nil => exact absurd rfl hne
      | cons c gap => simpa using hgap c List.mem_cons_self
    rw [List.append_assoc, List.append_assoc, Text.chunks_gap_append hbefore,
      Text.chunks_word_append (mt String.toList_eq_nil_iff.1 hstepne) hstep hhead,
      Text.chunks_gap_append hgap, ih hsteps, List.map_cons]

theorem Spells.words_trim (h : Spells path raw.toList)
    (hsteps : ∀ step ∈ path, step ≠ "" ∧ ∀ c ∈ step.toList, isSeparator c = false) :
    Text.words isSeparator (Text.trim raw) = path := by
  rw [Text.words_trim fun _ => isSeparator_of_isBlank, Text.words_eq, h.chunks_eq hsteps]
  simp

/-- A text that begins like a category has a first word that does. -/
theorem exists_words_of_macro {tail : List Char} (htext : text.toList = "macro:".toList ++ tail) :
    ∃ step ∈ (Text.words isSeparator text).head?, "macro:".toList <+: step.toList := by
  -- the first word goes on behind the opening up to the first separator
  let keep := fun c => !isSeparator c
  let word := "macro:".toList ++ tail.takeWhile keep
  have hsplit : text.toList = word ++ tail.dropWhile keep := by
    rw [htext, List.append_assoc, List.takeWhile_append_dropWhile]
  have hlead : ∀ c ∈ "macro:".toList, isSeparator c = false := by
    simp [isSeparator, Text.isBlank]
  have hword : ∀ c ∈ word, isSeparator c = false := by
    intro c hc
    rcases List.mem_append.1 hc with hc | hc
    · exact hlead c hc
    · simpa [keep] using List.mem_takeWhile_imp hc
  have hrest : ∀ c ∈ (tail.dropWhile keep).head?, isSeparator c = true := by
    intro c hc
    have hstop := List.head?_dropWhile_not keep tail
    rw [Option.mem_def.1 hc] at hstop
    simpa [keep] using hstop
  refine ⟨String.ofList word, ?_, ?_⟩
  · rw [Text.words_eq, hsplit, Text.chunks_word_append (by simp [word]) hword hrest]
    rfl
  · rw [String.toList_ofList (l := word)]
    exact List.prefix_append _ _

/-- The reserved name holds no separator, so in any case it is one word. -/
theorem words_of_globals (h : text.toLower = globalTarget) :
    Text.words isSeparator text = [text] := by
  have hlower : text.toList.map Char.toLower = globalTarget.toList := by
    rw [← Text.toList_toLower, h]
  have hglobal : ∀ c ∈ globalTarget.toList, isSeparator c = false := by
    simp [globalTarget, isSeparator, Text.isBlank]
  have hword : ∀ c ∈ text.toList, isSeparator c = false := by
    intro c hc
    rw [← Bool.not_eq_true]
    intro hseparator
    have hmem : c ∈ globalTarget.toList := by
      rw [← hlower, ← toLower_of_isSeparator hseparator]
      exact List.mem_map_of_mem hc
    exact Bool.false_ne_true ((hglobal c hmem).symm.trans hseparator)
  have hne : text.toList ≠ [] := by
    intro hnil
    rw [hnil] at hlower
    exact absurd hlower (by decide)
  rw [Text.words_eq, Text.chunks_word hne hword, List.map_singleton, String.ofList_toList]

end Words

section Parse

variable {path : List String} {raw : String}

/-- Every spelling of a path is read as its steps. -/
theorem parse_of_spells (hpath : IsPath path) (h : Spells path raw.toList) :
    parse raw = element path := by
  have hwords := h.words_trim hpath.steps
  have hblank : Text.trim raw ≠ "" := by
    intro htext
    rw [htext] at hwords
    exact hpath.ne_nil hwords.symm
  have hstar : Text.trim raw ≠ wildcardName := by
    intro htext
    rw [htext] at hwords
    exact hpath.not_wildcard (hwords.symm.trans (by decide))
  have hglobals : Text.sameIgnoringCase (Text.trim raw) globalTarget = false := by
    have hlower : globalTarget.toLower = globalTarget := by decide +kernel
    rw [Text.sameIgnoringCase, hlower, beq_eq_false_iff_ne]
    intro hsame
    exact hpath.not_globals _ (hwords.symm.trans (words_of_globals hsame)) hsame
  have hmacro : Text.after? "macro:" (Text.trim raw) = none := by
    rw [Text.after?, Option.map_eq_none_iff, Option.eq_none_iff_forall_not_mem]
    intro tail htail
    obtain ⟨step, hfirst, hlead⟩ :=
      exists_words_of_macro (Text.afterPrefix?_eq_some_iff.1 htail)
    rw [hwords] at hfirst
    exact hpath.not_category step hfirst hlead
  simp [parse, hblank, hstar, hglobals, hmacro, hwords, hpath.not_wildcard]

end Parse

section Meaning

variable {path : List String}

theorem target?_of_spells {raw : String} (hpath : IsPath path) (h : Spells path raw.toList) :
    (parse raw).target? = path.getLast? := by
  rw [parse_of_spells hpath h, target?]

/-- A descriptor's rank is settled by the steps of its path and by its profile expression. -/
theorem specificity_of_spells {d : Descriptor} (hpath : IsPath path)
    (h : Spells path d.selector.toList) (p : ProfileSet) :
    Specificity.of p d = ⟨Specificity.selectorRank (element path),
      d.profileExpression.specificity p, path.length⟩ := by
  rw [Specificity.of, Descriptor.parsedSelector, parse_of_spells hpath h, depth]

/-- However a path is spelled, it is read as its steps. Its target is the last of them, its depth is
their number, and it is exact unless the last one is the wildcard. Descriptors that spell the same
path have the same target, and with the same profile expression they have the same rank for every
profile set. -/
theorem spellings_read_alike (hpath : IsPath path) :
    (∀ raw : String, Spells path raw.toList →
      parse raw = element path ∧
      (parse raw).depth = path.length ∧
      ∃ last, path.getLast? = some last ∧ (parse raw).target? = some last ∧
        ((parse raw).isExact = true ↔ last ≠ wildcardName)) ∧
    ∀ d e : Descriptor, Spells path d.selector.toList → Spells path e.selector.toList →
      d.profileExpression = e.profileExpression →
      d.parsedSelector.target? = e.parsedSelector.target? ∧
      ∀ p, Specificity.of p d = Specificity.of p e := by
  constructor
  · intro raw hraw
    have hparse := parse_of_spells hpath hraw
    have hlast := List.getLast?_eq_some_getLast hpath.ne_nil
    refine ⟨hparse, by rw [hparse, depth], _, hlast, by rw [hparse, target?, hlast], ?_⟩
    rw [hparse, isExact, hlast]
    simp
  · intro d e hd he hexpression
    refine ⟨?_, fun p => ?_⟩
    · exact (target?_of_spells hpath hd).trans (target?_of_spells hpath he).symm
    · rw [specificity_of_spells hpath hd, specificity_of_spells hpath he, hexpression]

end Meaning

/-- An order's items, with a spelling of the path and one of the profile expression. -/
def spacedItems : Descriptor := { selector := " /order\t//item ", profile := " html" }

def plainItems : Descriptor := { selector := "order/item", profile := "html," }

theorem items_read_alike :
    parse spacedItems.selector = element ["order", "item"] ∧
    parse plainItems.selector = element ["order", "item"] ∧
    ∀ p, Specificity.of p spacedItems = Specificity.of p plainItems := by
  have hpath : IsPath ["order", "item"] := by
    refine ⟨by simp, by simp [isSeparator, Text.isBlank], ?_, by simp, by simp⟩
    simp only [List.head?_cons, Option.mem_def, Option.some.injEq, forall_eq']
    decide
  have hspaced : Spells ["order", "item"] spacedItems.selector.toList :=
    @Spells.cons "order" ["item"] [' ', '/'] ['\t', '/', '/'] "item ".toList
      (by simp [isSeparator, Text.isBlank]) (by simp) (by simp [isSeparator, Text.isBlank])
      (@Spells.last "item" [] [' '] (by simp) (by simp [isSeparator, Text.isBlank]))
  have hplain : Spells ["order", "item"] plainItems.selector.toList :=
    @Spells.cons "order" ["item"] [] ['/'] "item".toList
      (by simp) (by simp) (by simp [isSeparator])
      (@Spells.last "item" [] [] (by simp) (by simp))
  have hprofiles : spacedItems.profileExpression = plainItems.profileExpression := by
    decide +kernel
  obtain ⟨hread, halike⟩ := spellings_read_alike hpath
  exact ⟨(hread _ hspaced).1, (hread _ hplain).1, (halike _ _ hspaced hplain hprofiles).2⟩

end DeliveryPipeline.Selector
