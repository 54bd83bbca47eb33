import DeliveryPipeline.Schema.Dtd
import Mathlib.Data.List.TakeWhile

/-!
# Reading declarations

Behind its mark a declaration holds a name and a content, each after a gap of blanks, and it ends at
the first closing bracket. The gap before the content takes in the blanks that the content begins
with, so the content that is read may be shorter than the written one. No content model tells the
difference.
-/
namespace DeliveryPipeline.Dtd

/-- One blank or more. -/
structure IsGap (cs : List Char) : Prop where
  ne_nil : cs ≠ []
  isBlank : ∀ c ∈ cs, Text.isBlank c = true

theorem isGap_iff {cs : List Char} : IsGap cs ↔ cs ≠ [] ∧ cs.all Text.isBlank = true := by
  rw [List.all_eq_true]
  exact ⟨fun h => ⟨h.ne_nil, h.isBlank⟩, fun h => ⟨h.1, h.2⟩⟩

instance (cs : List Char) : Decidable (IsGap cs) := decidable_of_iff _ isGap_iff.symm

/-- What is written between the mark of a declaration and its closing bracket. -/
structure Written (d : Declaration) (inside : List Char) : Prop where
  name_ne_nil : d.name ≠ []
  isNameChar : ∀ c ∈ d.name, isNameChar c = true
  content_ne_nil : d.content ≠ []
  bracket_not_mem_content : '>' ∉ d.content
  exists_gaps : ∃ first second, IsGap first ∧ IsGap second ∧
    inside = first ++ d.name ++ second ++ d.content

namespace Declaration

/-- The declared element with its content model. -/
def element (d : Declaration) : String × ContentModel :=
  (String.ofList d.name, ContentModel.ofContent d.content)

/-- The content without its blanks, on which alone the content model depends. -/
def solidContent (d : Declaration) : List Char :=
  d.content.filter (!Text.isBlank ·)

theorem element_eq {d e : Declaration} (hname : d.name = e.name)
    (hcontent : d.solidContent = e.solidContent) : d.element = e.element := by
  simp only [solidContent] at hcontent
  simp only [element, ContentModel.ofContent, hname, hcontent]

end Declaration

section Characters

theorem ne_bracket_of_isBlank {c : Char} (h : Text.isBlank c = true) : c ≠ '>' := by
  rintro rfl
  exact absurd h (by decide)

theorem ne_opening_of_isBlank {c : Char} (h : Text.isBlank c = true) : c ≠ '<' := by
  rintro rfl
  exact absurd h (by decide)

theorem isBlank_of_isNameChar {c : Char} (h : isNameChar c = true) : Text.isBlank c = false := by
  simp_all [isNameChar]

theorem isNameChar_of_isBlank {c : Char} (h : Text.isBlank c = true) : isNameChar c = false := by
  simp [isNameChar, h]

theorem IsGap.bracket_not_mem {cs : List Char} (h : IsGap cs) : '>' ∉ cs :=
  fun hmem => ne_bracket_of_isBlank (h.isBlank _ hmem) rfl

theorem IsGap.opening_not_mem {cs : List Char} (h : IsGap cs) : '<' ∉ cs :=
  fun hmem => ne_opening_of_isBlank (h.isBlank _ hmem) rfl

theorem Written.bracket_not_mem {d : Declaration} {inside : List Char} (h : Written d inside) :
    '>' ∉ inside := by
  obtain ⟨first, second, hfirst, hsecond, rfl⟩ := h.exists_gaps
  have hname : '>' ∉ d.name := fun hmem => absurd (h.isNameChar _ hmem) (by decide)
  simp [hfirst.bracket_not_mem, hsecond.bracket_not_mem, hname, h.bracket_not_mem_content]

end Characters

section Spans

variable {p : Char → Bool} {xs ys : List Char}

theorem forall_mem_head?_append {q : Char → Prop} (hne : xs ≠ []) (hxs : ∀ c ∈ xs, q c)
    (ys : List Char) : ∀ c ∈ (xs ++ ys).head?, q c := by
  intro c hc
  obtain ⟨x, rest, rfl⟩ := List.exists_cons_of_ne_nil hne
  obtain rfl : x = c := by simpa using hc
  exact hxs x (by simp)

theorem takeWhile_append_of_head? (hxs : ∀ c ∈ xs, p c = true) (hys : ∀ c ∈ ys.head?, p c = false) :
    (xs ++ ys).takeWhile p = xs := by
  rw [List.takeWhile_append_of_pos hxs]
  cases ys with
  | nil => simp
  | cons c ys => rw [List.takeWhile_cons_of_neg (by simp [hys c rfl]), List.append_nil]

theorem dropWhile_append_of_head? (hxs : ∀ c ∈ xs, p c = true) (hys : ∀ c ∈ ys.head?, p c = false) :
    (xs ++ ys).dropWhile p = ys := by
  rw [List.dropWhile_append_of_pos hxs]
  cases ys with
  | nil => rfl
  | cons c ys => exact List.dropWhile_cons_of_neg (by simp [hys c rfl])

end Spans

section Content

theorem filter_dropWhile_isBlank (cs : List Char) :
    (cs.dropWhile Text.isBlank).filter (!Text.isBlank ·) = cs.filter (!Text.isBlank ·) := by
  induction cs with
  | nil => rfl
  | cons c cs ih => by_cases hc : Text.isBlank c = true <;> simp_all

variable {gap body content tail : List Char}

/-- The last of two blanks or more leaves a gap before it. -/
theorem IsGap.take_last (hgap : IsGap gap) (hlong : 2 ≤ gap.length) :
    IsGap (gap.take (gap.length - 1)) ∧ gap.drop (gap.length - 1) ≠ [] := by
  refine ⟨⟨?_, fun c hmem => hgap.isBlank c (List.mem_of_mem_take hmem)⟩, ?_⟩
  · rw [ne_eq, List.take_eq_nil_iff, not_or]
    exact ⟨by omega, hgap.ne_nil⟩
  · rw [ne_eq, List.drop_eq_nil_iff, Nat.not_le]
    omega

/-- What is read as the content ends at the bracket and, with a gap before it, makes up the text. -/
theorem exists_gap_of_content? (hgap : IsGap gap)
    (h : content? gap body = some (content, tail)) :
    content ≠ [] ∧ '>' ∉ content ∧
      ∃ second, IsGap second ∧ gap ++ body = second ++ content ++ '>' :: tail := by
  have hbody := List.takeWhile_append_dropWhile (p := (· != '>')) (l := body)
  have hinside : '>' ∉ body.takeWhile (· != '>') := by
    intro hmem
    exact absurd (List.mem_takeWhile_imp hmem) (by decide)
  unfold content? at h
  split at h
  next => cases h
  next c rest hdrop =>
    have hc : c = '>' := by
      have hhead := List.head?_dropWhile_not (· != '>') body
      rw [hdrop] at hhead
      simpa using hhead
    subst hc
    rw [hdrop] at hbody
    split at h
    next hempty =>
      rw [hempty, List.nil_append] at hbody
      split at h
      next hlong =>
        simp only [Option.some.injEq, Prod.mk.injEq] at h
        obtain ⟨rfl, rfl⟩ := h
        -- the last blank of the gap is the content
        obtain ⟨hsecond, hne⟩ := hgap.take_last hlong
        refine ⟨hne, fun hmem => hgap.bracket_not_mem (List.mem_of_mem_drop hmem), _, hsecond, ?_⟩
        rw [List.take_append_drop, hbody]
      next => cases h
    next content' hne =>
      simp only [Option.some.injEq, Prod.mk.injEq] at h
      obtain ⟨rfl, rfl⟩ := h
      exact ⟨hne, hinside, gap, hgap, by rw [List.append_assoc, hbody]⟩

theorem content?_of_ne_nil (gap tail : List Char) (hne : content ≠ []) (hbracket : '>' ∉ content) :
    content? gap (content ++ '>' :: tail) = some (content, tail) := by
  have hall : ∀ c ∈ content, (c != '>') = true := by
    intro c hc
    rw [bne_iff_ne]
    rintro rfl
    exact hbracket hc
  rw [content?, dropWhile_append_of_head? hall (by simp), takeWhile_append_of_head? hall (by simp)]
  simp

theorem content?_of_two_le (hlong : 2 ≤ gap.length) (tail : List Char) :
    content? gap ('>' :: tail) = some (gap.drop (gap.length - 1), tail) := by
  simp [content?, hlong]

/-- A written content is read, but for blanks at its beginning. -/
theorem exists_content?_of_gap {second : List Char} (hgap : IsGap second) (hne : content ≠ [])
    (hbracket : '>' ∉ content) (tail : List Char) :
    let text := second ++ content ++ '>' :: tail
    ∃ read, content? (text.takeWhile Text.isBlank) (text.dropWhile Text.isBlank) =
        some (read, tail) ∧
      read.filter (!Text.isBlank ·) = content.filter (!Text.isBlank ·) := by
  intro text
  have hclosing : Text.isBlank '>' = false := by decide
  have htext : text = second ++ (content ++ '>' :: tail) := List.append_assoc ..
  have htake : text.takeWhile Text.isBlank =
      second ++ (content ++ '>' :: tail).takeWhile Text.isBlank := by
    rw [htext, List.takeWhile_append_of_pos hgap.isBlank]
  have hdrop : text.dropWhile Text.isBlank =
      (content ++ '>' :: tail).dropWhile Text.isBlank := by
    rw [htext, List.dropWhile_append_of_pos hgap.isBlank]
  rw [htake, hdrop]
  by_cases hblank : ∀ c ∈ content, Text.isBlank c = true
  · -- nothing but blanks: the last of them is read
    have hlength : 2 ≤ (second ++ content).length := by
      have h1 := List.length_pos_iff.2 hgap.ne_nil
      have h2 := List.length_pos_iff.2 hne
      rw [List.length_append]
      omega
    rw [List.takeWhile_append_of_pos hblank, List.dropWhile_append_of_pos hblank,
      List.takeWhile_cons_of_neg (by simp [hclosing]),
      List.dropWhile_cons_of_neg (by simp [hclosing]), List.append_nil]
    refine ⟨_, content?_of_two_le hlength tail, ?_⟩
    have hall : ∀ c ∈ second ++ content, Text.isBlank c = true :=
      List.forall_mem_append.2 ⟨hgap.isBlank, hblank⟩
    rw [List.filter_eq_nil_iff.2 fun c hc => by simp [hall c (List.mem_of_mem_drop hc)],
      List.filter_eq_nil_iff.2 fun c hc => by simp [hblank c hc]]
  · have hsolid : content.dropWhile Text.isBlank ≠ [] := mt List.dropWhile_eq_nil_iff.1 hblank
    have hinside : '>' ∉ content.dropWhile Text.isBlank :=
      fun hmem => hbracket ((List.dropWhile_sublist _).subset hmem)
    refine ⟨content.dropWhile Text.isBlank, ?_, ?_⟩
    · rw [List.dropWhile_append, if_neg (by simpa using hsolid)]
      exact content?_of_ne_nil _ tail hsolid hinside
    · exact filter_dropWhile_isBlank content

end Content

section Declaration

variable {cs tail rest inside : List Char} {d : Declaration}

/-- No declaration begins without the opening bracket of its mark. -/
theorem declaration?_of_ne {c : Char} (hc : c ≠ '<') : declaration? (c :: cs) = none := by
  simp [declaration?, declarationOpening, Text.afterPrefix?, Ne.symm hc]

/-- A declaration that is read is written there, up to its closing bracket. -/
theorem exists_written_of_declaration? (h : declaration? cs = some (d, tail)) :
    ∃ inside, Written d inside ∧ cs = declarationOpening ++ inside ++ '>' :: tail := by
  unfold declaration? at h
  split at h
  next => cases h
  next body hbody =>
    dsimp only at h
    split at h
    next => cases h
    next hshape =>
      simp only [not_or, List.isEmpty_iff] at hshape
      obtain ⟨hfirst, hname, hgap⟩ := hshape
      obtain ⟨⟨content, rest⟩, hcontent, hd⟩ := Option.map_eq_some_iff.1 h
      simp only [Prod.mk.injEq] at hd
      obtain ⟨rfl, rfl⟩ := hd
      have hblanks : IsGap (((body.dropWhile Text.isBlank).dropWhile isNameChar).takeWhile
          Text.isBlank) := ⟨hgap, fun c hc => List.mem_takeWhile_imp hc⟩
      obtain ⟨hne, hbracket, second, hsecond, htext⟩ := exists_gap_of_content? hblanks hcontent
      have hstart : IsGap (body.takeWhile Text.isBlank) := by
        refine ⟨fun hnil => hfirst ?_, fun c hc => List.mem_takeWhile_imp hc⟩
        have hsplit := List.takeWhile_append_dropWhile (p := Text.isBlank) (l := body)
        rw [hnil, List.nil_append] at hsplit
        rw [hsplit]
      refine ⟨_, ⟨hname, fun c hc => List.mem_takeWhile_imp hc, hne, hbracket,
        body.takeWhile Text.isBlank, second, hstart, hsecond, rfl⟩, ?_⟩
      rw [Text.afterPrefix?_eq_some_iff.1 hbody]
      rw [List.takeWhile_append_dropWhile] at htext
      simp only [List.append_assoc] at htext ⊢
      rw [← htext, List.takeWhile_append_dropWhile, List.takeWhile_append_dropWhile]

/-- A written declaration is read, with its name and all of its content that is not blank. -/
theorem exists_declaration?_of_written (h : Written d inside) (tail : List Char) :
    ∃ read, declaration? (declarationOpening ++ inside ++ '>' :: tail) = some (read, tail) ∧
      read.element = d.element := by
  obtain ⟨first, second, hfirst, hsecond, rfl⟩ := h.exists_gaps
  obtain ⟨read, hread, hsolid⟩ :=
    exists_content?_of_gap hsecond h.content_ne_nil h.bracket_not_mem_content tail
  refine ⟨⟨d.name, read⟩, ?_, Declaration.element_eq rfl hsolid⟩
  have hmark : Text.afterPrefix? declarationOpening
      (declarationOpening ++ (first ++ d.name ++ second ++ d.content) ++ '>' :: tail) =
        some (first ++ (d.name ++ (second ++ d.content ++ '>' :: tail))) := by
    rw [Text.afterPrefix?_eq_some_iff]
    simp only [List.append_assoc]
  have hnamed : ∀ c ∈ (d.name ++ (second ++ d.content ++ '>' :: tail)).head?,
      Text.isBlank c = false :=
    forall_mem_head?_append h.name_ne_nil
      (fun c hc => isBlank_of_isNameChar (h.isNameChar c hc)) _
  have hgap : ∀ c ∈ (second ++ d.content ++ '>' :: tail).head?, isNameChar c = false := by
    rw [List.append_assoc]
    exact forall_mem_head?_append hsecond.ne_nil
      (fun c hc => isNameChar_of_isBlank (hsecond.isBlank c hc)) _
  have hblank : ((second ++ d.content ++ '>' :: tail).takeWhile Text.isBlank).isEmpty = false := by
    rw [List.append_assoc, List.takeWhile_append_of_pos hsecond.isBlank]
    simp [hsecond.ne_nil]
  have hlength := List.length_pos_iff.2 hfirst.ne_nil
  rw [declaration?, hmark]
  simp only [dropWhile_append_of_head? hfirst.isBlank hnamed,
    dropWhile_append_of_head? h.isNameChar hgap, takeWhile_append_of_head? h.isNameChar hgap, hread,
    hblank]
  rw [if_neg]
  · rfl
  · simp only [List.length_append, List.isEmpty_iff, h.name_ne_nil, Bool.false_eq_true, or_false]
    omega

end Declaration

section Declarations

variable {cs tail : List Char} {d : Declaration}

@[simp] theorem declarations_nil : declarations [] = [] := by
  unfold declarations
  rfl

theorem declarations_of_declaration? (h : declaration? cs = some (d, tail)) :
    declarations cs = d :: declarations tail := by
  cases cs with
  | nil => cases h
  | cons c cs =>
    rw [declarations]
    split
    next d' tail' htail' =>
      obtain ⟨rfl, rfl⟩ := Prod.mk.inj (Option.some.inj (h.symm.trans htail'))
      rfl
    next hnone => exact absurd (h.symm.trans hnone) (by simp)

/-- Where no declaration is read, a character is passed over. -/
theorem declarations_cons {c : Char} (h : declaration? (c :: cs) = none) :
    declarations (c :: cs) = declarations cs := by
  rw [declarations]
  split
  next d tail htail => exact absurd (h.symm.trans htail) (by simp)
  next => rfl

end Declarations

section Outcome

variable {seen names : List String} {name : String}

theorem firstRepeat?_eq_none_iff :
    firstRepeat? seen names = none ↔ names.Nodup ∧ ∀ n ∈ names, n ∉ seen := by
  induction names generalizing seen with
  | nil => simp [firstRepeat?]
  | cons n names ih =>
    rw [firstRepeat?, List.nodup_cons, List.forall_mem_cons]
    split
    next hseen => simp [hseen]
    next hnew => rw [ih]; grind

/-- The first repeat is a name that was seen before, behind names that were not. -/
theorem firstRepeat?_eq_some_iff : firstRepeat? seen names = some name ↔
    ∃ before after, names = before ++ name :: after ∧ before.Nodup ∧ (∀ n ∈ before, n ∉ seen) ∧
      (name ∈ seen ∨ name ∈ before) := by
  induction names generalizing seen with
  | nil => simp [firstRepeat?]
  | cons n names ih =>
    rw [firstRepeat?]
    split
    next hseen =>
      constructor
      · intro h
        cases h
        exact ⟨[], names, rfl, List.nodup_nil, by simp, .inl hseen⟩
      · rintro ⟨before, after, hnames, hnodup, hnew, hrepeat⟩
        cases before with
        | nil => simp_all
        | cons m before => simp_all
    next hnew =>
      rw [ih]
      constructor
      · rintro ⟨before, after, rfl, hnodup, hfresh, hrepeat⟩
        exact ⟨n :: before, after, rfl, by grind⟩
      · rintro ⟨before, after, hnames, hnodup, hfresh, hrepeat⟩
        cases before with
        | nil => simp_all
        | cons m before =>
          obtain ⟨rfl, rfl⟩ := List.cons.inj hnames
          exact ⟨before, after, rfl, by grind⟩

/-- The elements that a text declares, outside of its comments. -/
def declaredElements (text : String) : List (String × ContentModel) :=
  (declarations (withoutComments text.toList)).map Declaration.element

theorem parse_eq (text : String) : parse text =
    match firstRepeat? [] ((declaredElements text).map (·.1)) with
    | some name => .error (.duplicateElement name)
    | none =>
      if (declaredElements text).isEmpty then .error .noElements
      else .ok ⟨declaredElements text⟩ := rfl

/-- A text is read when it declares elements, and no name twice. -/
theorem parse_eq_ok_iff {text : String} {dtd : Dtd} : parse text = .ok dtd ↔
    dtd.elements = declaredElements text ∧ (dtd.elements.map (·.1)).Nodup ∧ dtd.elements ≠ [] := by
  obtain ⟨elements⟩ := dtd
  have hrepeat : firstRepeat? [] ((declaredElements text).map (·.1)) = none ↔
      ((declaredElements text).map (·.1)).Nodup := by
    simp [firstRepeat?_eq_none_iff]
  rw [parse_eq]
  cases hfirst : firstRepeat? [] ((declaredElements text).map (·.1)) with
  | some name =>
    rw [hfirst] at hrepeat
    simp only [reduceCtorEq, false_iff] at hrepeat ⊢
    rintro ⟨rfl, hnodup, -⟩
    exact hrepeat hnodup
  | none =>
    have hnodup := hrepeat.1 hfirst
    by_cases hempty : declaredElements text = []
    · simp +contextual [hempty]
    · simp only [List.isEmpty_iff, hempty, if_false, Except.ok.injEq, Dtd.mk.injEq]
      constructor
      · rintro rfl
        exact ⟨rfl, hnodup, hempty⟩
      · rintro ⟨rfl, -, -⟩
        rfl

/-- It is refused for the first name that is declared a second time. -/
theorem parse_eq_duplicate_iff {text : String} : parse text = .error (.duplicateElement name) ↔
    ∃ before after, (declaredElements text).map (·.1) = before ++ name :: after ∧ before.Nodup ∧
      name ∈ before := by
  have hfirst : parse text = .error (.duplicateElement name) ↔
      firstRepeat? [] ((declaredElements text).map (·.1)) = some name := by
    rw [parse_eq]
    split
    next other hother => simp [hother]
    next hnone => split <;> simp [hnone]
  rw [hfirst, firstRepeat?_eq_some_iff]
  simp

end Outcome

end DeliveryPipeline.Dtd
