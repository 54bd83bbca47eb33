import DeliveryPipeline.Text.Pieces
import Mathlib.Data.List.DropRight
import Mathlib.Data.List.TakeWhile

/-!
# Pieces of a text

Trimming takes blanks off the two ends of a text and nothing else. The words of a text are what
stands between its separators, so separators at the ends, and more than one of them in a row, make
no difference. The same holds of the items of a comma list, of which the blank ones are dropped. A
piece that holds no mark ends where the next mark stands.
-/
namespace DeliveryPipeline.Text

theorem exists_trimChars (cs : List Char) : ∃ front back, cs = front ++ trimChars cs ++ back ∧
    (∀ c ∈ front, isBlank c = true) ∧ ∀ c ∈ back, isBlank c = true := by
  let inner := cs.dropWhile isBlank
  have hback : trimChars cs ++ (inner.reverse.takeWhile isBlank).reverse = inner := by
    rw [trimChars, ← List.reverse_append, List.takeWhile_append_dropWhile, List.reverse_reverse]
  refine ⟨cs.takeWhile isBlank, (inner.reverse.takeWhile isBlank).reverse, ?_,
    fun c hc => List.mem_takeWhile_imp hc,
    fun c hc => List.mem_takeWhile_imp (List.mem_reverse.1 hc)⟩
  rw [List.append_assoc, hback, List.takeWhile_append_dropWhile]

theorem trimChars_trimChars (cs : List Char) : trimChars (trimChars cs) = trimChars cs := by
  have htrim (cs : List Char) : trimChars cs = (cs.dropWhile isBlank).rdropWhile isBlank := rfl
  have hfront : (trimChars cs).dropWhile isBlank = trimChars cs := by
    rw [List.dropWhile_eq_self_iff]
    intro hpos
    -- what is left begins as it did before the blanks were taken off its end
    have hbegins : trimChars cs <+: cs.dropWhile isBlank := List.rdropWhile_prefix isBlank _
    rw [hbegins.getElem hpos]
    exact List.dropWhile_get_zero_not isBlank cs _
  rw [htrim (trimChars cs), hfront, htrim, List.rdropWhile_idempotent]

@[simp] theorem trim_trim (s : String) : trim (trim s) = trim s := by
  rw [trim, toList_trim, trimChars_trimChars, ← trim]

/-- What holds of all blanks holds of a text if it holds of the trimmed text. -/
theorem forall_mem_trimChars_iff {p : Char → Prop} (hp : ∀ c, isBlank c = true → p c)
    (cs : List Char) : (∀ c ∈ trimChars cs, p c) ↔ ∀ c ∈ cs, p c := by
  obtain ⟨front, back, htext, hfront, hback⟩ := exists_trimChars cs
  constructor
  · intro h c hc
    rw [htext, List.mem_append, List.mem_append] at hc
    rcases hc with (hc | hc) | hc
    · exact hp c (hfront c hc)
    · exact h c hc
    · exact hp c (hback c hc)
  · intro h c hc
    rw [htext] at h
    exact h c (List.mem_append_left _ (List.mem_append_right _ hc))

theorem trimChars_eq_nil_iff {cs : List Char} :
    trimChars cs = [] ↔ ∀ c ∈ cs, isBlank c = true := by
  constructor
  · intro h
    apply (forall_mem_trimChars_iff (fun _ hblank => hblank) cs).1
    simp [h]
  · intro h
    simp [trimChars, List.dropWhile_eq_nil_iff.2 h]

theorem trim_eq_empty_iff (s : String) : trim s = "" ↔ ∀ c ∈ s.toList, isBlank c = true := by
  rw [trim, String.ofList_eq_empty_iff, trimChars_eq_nil_iff]

theorem toList_toLower (s : String) : s.toLower.toList = s.toList.map Char.toLower :=
  String.toList_map

theorem toLower_eq_empty_iff {s : String} : s.toLower = "" ↔ s = "" := by
  rw [← String.toList_eq_nil_iff, toList_toLower, List.map_eq_nil_iff, String.toList_eq_nil_iff]

/-- The words of a text as lists of characters. -/
def chunks (separates : Char → Bool) (cs : List Char) : List (List Char) :=
  (cs.splitOnP separates).filter (!·.isEmpty)

theorem words_eq (separates : Char → Bool) (s : String) :
    words separates s = (chunks separates s.toList).map String.ofList := rfl

section Chunks

variable {separates : Char → Bool} {gap word rest : List Char}

theorem chunks_nil : chunks separates [] = [] := by
  simp [chunks]

/-- A separator belongs to no chunk. -/
theorem chunks_append_cons {c : Char} (hc : separates c = true) (before after : List Char) :
    chunks separates (before ++ c :: after) =
      chunks separates before ++ chunks separates after := by
  rw [chunks, List.splitOnP_append_cons before after hc, List.filter_append, chunks, chunks]

theorem chunks_gap_append (hgap : ∀ c ∈ gap, separates c = true) (rest : List Char) :
    chunks separates (gap ++ rest) = chunks separates rest := by
  induction gap with
  | nil => rfl
  | cons c gap ih =>
    obtain ⟨hc, hgap⟩ := List.forall_mem_cons.1 hgap
    exact (chunks_append_cons hc [] (gap ++ rest)).trans (ih hgap)

theorem chunks_append_gap (hgap : ∀ c ∈ gap, separates c = true) (before : List Char) :
    chunks separates (before ++ gap) = chunks separates before := by
  cases gap with
  | nil => rw [List.append_nil]
  | cons c gap =>
    obtain ⟨hc, hgap⟩ := List.forall_mem_cons.1 hgap
    have hnone : chunks separates gap = [] := by
      simpa [chunks_nil] using chunks_gap_append hgap []
    rw [chunks_append_cons hc, hnone, List.append_nil]

/-- Characters that do not separate make one chunk. -/
theorem chunks_word (hne : word ≠ []) (hword : ∀ c ∈ word, separates c = false) :
    chunks separates word = [word] := by
  simp [chunks, List.splitOnP_eq_singleton hword, hne]

/-- They do so up to the next separator as well. -/
theorem chunks_word_append (hne : word ≠ []) (hword : ∀ c ∈ word, separates c = false)
    (hrest : ∀ c ∈ rest.head?, separates c = true) :
    chunks separates (word ++ rest) = word :: chunks separates rest := by
  cases rest with
  | nil => rw [List.append_nil, chunks_word hne hword, chunks_nil]
  | cons c rest =>
    have hc : separates c = true := hrest c rfl
    have hrest : chunks separates (c :: rest) = chunks separates rest :=
      chunks_append_cons hc [] rest
    rw [chunks_append_cons hc, chunks_word hne hword, hrest, List.singleton_append]

/-- Where all blanks separate, trimming takes no word away. -/
theorem words_trim (hblank : ∀ c, isBlank c = true → separates c = true) (s : String) :
    words separates (trim s) = words separates s := by
  obtain ⟨front, back, htext, hfront, hback⟩ := exists_trimChars s.toList
  rw [words_eq, words_eq, toList_trim, htext,
    chunks_append_gap fun c hc => hblank c (hback c hc),
    chunks_gap_append fun c hc => hblank c (hfront c hc), ← htext]

end Chunks

/-- A text has no words exactly if all of it separates. -/
theorem words_eq_nil_iff (separates : Char → Bool) (s : String) :
    words separates s = [] ↔ ∀ c ∈ s.toList, separates c = true := by
  rw [words, List.map_eq_nil_iff]
  induction s.toList with
  | nil => simp
  | cons c cs ih =>
    rw [List.splitOnP_cons_eq_if_modifyHead, List.forall_mem_cons]
    split
    next hc => simpa [hc] using ih
    next hc =>
      obtain ⟨word, words, hwords⟩ := List.exists_cons_of_ne_nil (List.splitOnP_ne_nil separates cs)
      simp [hwords, hc]

theorem mem_commaList_iff {s item : String} : item ∈ commaList s ↔
    item ≠ "" ∧ ∃ piece ∈ s.toList.splitOnP (· == ','), trimChars piece = item.toList := by
  simp only [commaList, List.mem_map, List.mem_filter]
  constructor
  · rintro ⟨cs, ⟨⟨piece, hpiece, rfl⟩, hne⟩, rfl⟩
    rw [Bool.not_eq_true', List.isEmpty_eq_false_iff] at hne
    exact ⟨mt String.ofList_eq_empty_iff.1 hne, piece, hpiece, String.toList_ofList.symm⟩
  · rintro ⟨hne, piece, hpiece, htrim⟩
    refine ⟨item.toList, ⟨⟨piece, hpiece, htrim⟩, ?_⟩, String.ofList_toList⟩
    rw [Bool.not_eq_true', List.isEmpty_eq_false_iff]
    exact mt String.toList_eq_nil_iff.1 hne

/-- The items of a comma list have no blanks around them. -/
theorem trim_of_mem_commaList {s item : String} (h : item ∈ commaList s) : trim item = item := by
  obtain ⟨-, piece, -, htrim⟩ := mem_commaList_iff.1 h
  rw [trim, ← htrim, trimChars_trimChars, htrim, String.ofList_toList]

/-- Two lists that go on with a mark agree, if they have no mark before. -/
theorem append_cons_inj {α : Type} {marks a b x y : List α} {s t : α} (ha : ∀ c ∈ a, c ∉ marks)
    (hb : ∀ c ∈ b, c ∉ marks) (hs : s ∈ marks) (ht : t ∈ marks) (h : a ++ s :: x = b ++ t :: y) :
    a = b ∧ s = t ∧ x = y := by
  induction a generalizing b with
  | nil =>
    cases b with
    | nil => simpa using h
    | cons c b =>
      obtain ⟨rfl, -⟩ := List.cons.inj h
      exact absurd hs (hb s List.mem_cons_self)
  | cons c a ih =>
    cases b with
    | nil =>
      obtain ⟨rfl, -⟩ := List.cons.inj h
      exact absurd ht (ha c List.mem_cons_self)
    | cons c' b =>
      obtain ⟨rfl, hrest⟩ := List.cons.inj h
      obtain ⟨rfl, hst, hxy⟩ := ih (fun d hd => ha d (List.mem_cons_of_mem c hd))
        (fun d hd => hb d (List.mem_cons_of_mem c hd)) hrest
      exact ⟨rfl, hst, hxy⟩

end DeliveryPipeline.Text
