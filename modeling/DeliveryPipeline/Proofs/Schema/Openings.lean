import DeliveryPipeline.Proofs.Schema.Declarations
import Mathlib.Data.List.Infix

/-!
# Declarations that are lost

A declaration opens with its mark and a blank. One that is not written in full is passed over, and
one that opens before another is closed is taken for a part of that. Neither makes the text an
error. So a text has as many elements as declarations open in it exactly if each of them is whole.
-/
namespace DeliveryPipeline.Dtd

/-- Whether a declaration opens here. -/
def opens (cs : List Char) : Bool :=
  (Text.afterPrefix? declarationOpening cs).any fun rest => rest.head?.any Text.isBlank

/-- What stands in a text from each place on where a declaration opens. -/
def openings (cs : List Char) : List (List Char) :=
  cs.tails.filter opens

/-- A declaration is written here in full, and no other one opens before it is closed. -/
def IsWhole (cs : List Char) : Prop :=
  ∃ d inside tail, Written d inside ∧ openings inside = [] ∧
    cs = declarationOpening ++ inside ++ '>' :: tail

section Openings

variable {cs inside tail : List Char} {d : Declaration}

theorem opens_iff : opens cs = true ↔
    ∃ c rest, Text.isBlank c = true ∧ cs = declarationOpening ++ c :: rest := by
  simp only [opens, Option.any_eq_true, Text.afterPrefix?_eq_some_iff]
  constructor
  · rintro ⟨rest, rfl, c, hc, hblank⟩
    obtain ⟨rest, rfl⟩ := List.head?_eq_some_iff.1 hc
    exact ⟨c, rest, hblank, rfl⟩
  · rintro ⟨c, rest, hblank, rfl⟩
    exact ⟨c :: rest, rfl, c, rfl, hblank⟩

@[simp] theorem openings_nil : openings [] = [] := rfl

theorem openings_cons (c : Char) (cs : List Char) :
    openings (c :: cs) = if opens (c :: cs) = true then (c :: cs) :: openings cs else openings cs :=
  List.filter_cons

theorem openings_cons_of_ne {c : Char} (hc : c ≠ '<') : openings (c :: cs) = openings cs := by
  rw [openings_cons, if_neg]
  rw [opens_iff]
  rintro ⟨b, rest, -, hcs⟩
  exact hc (List.cons.inj hcs).1

/-- A closing bracket belongs to no opening. -/
theorem opens_append_bracket (cs tail : List Char) : opens (cs ++ '>' :: tail) = opens cs := by
  rw [Bool.eq_iff_iff, opens_iff, opens_iff]
  constructor
  · rintro ⟨c, rest, hblank, hcs⟩
    rw [List.append_cons declarationOpening, List.append_eq_append_iff] at hcs
    rcases hcs with ⟨middle, hmark, htail⟩ | ⟨middle, hcs, -⟩
    · cases middle with
      | nil => exact ⟨c, [], hblank, by simpa using hmark.symm⟩
      | cons x middle =>
        obtain ⟨rfl, -⟩ := List.cons.inj htail
        have hmem : '>' ∈ declarationOpening ++ [c] := by
          rw [hmark]
          simp
        have hc : c ≠ '>' := ne_bracket_of_isBlank hblank
        simp [declarationOpening, Ne.symm hc] at hmem
    · exact ⟨c, middle, hblank, by simpa using hcs⟩
  · rintro ⟨c, rest, hblank, rfl⟩
    exact ⟨c, rest ++ '>' :: tail, hblank, by simp⟩

theorem openings_append_bracket (cs tail : List Char) :
    openings (cs ++ '>' :: tail) = (openings cs).map (· ++ '>' :: tail) ++ openings tail := by
  induction cs with
  | nil =>
    rw [List.nil_append, openings_cons_of_ne (by decide)]
    rfl
  | cons c cs ih =>
    rw [List.cons_append, openings_cons, openings_cons, ← List.cons_append, opens_append_bracket,
      ih]
    split <;> rfl

/-- A written declaration opens once, and more often only if others open inside of it. -/
theorem openings_written (h : Written d inside) (tail : List Char) :
    openings (declarationOpening ++ inside ++ '>' :: tail) =
      (declarationOpening ++ inside ++ '>' :: tail) ::
        ((openings inside).map (· ++ '>' :: tail) ++ openings tail) := by
  have hopens : opens (declarationOpening ++ inside) = true := by
    obtain ⟨first, second, hfirst, hsecond, rfl⟩ := h.exists_gaps
    obtain ⟨c, cs, rfl⟩ := List.exists_cons_of_ne_nil hfirst.ne_nil
    exact opens_iff.2 ⟨c, _, hfirst.isBlank c (by simp), by simp [declarationOpening]; rfl⟩
  have hinside : openings (declarationOpening ++ inside) =
      (declarationOpening ++ inside) :: openings inside := by
    have hlater : openings (declarationOpening.tail ++ inside) = openings inside := by
      simp [declarationOpening, openings_cons_of_ne]
    rw [← hlater]
    exact (openings_cons '<' _).trans (if_pos hopens)
  rw [openings_append_bracket, hinside]
  rfl

/-- There is only one place where a declaration is closed, so it is whole exactly if nothing else
opens before that. -/
theorem isWhole_iff_of_written (h : Written d inside) (tail : List Char) :
    IsWhole (declarationOpening ++ inside ++ '>' :: tail) ↔ openings inside = [] := by
  constructor
  · rintro ⟨d', inside', tail', hwritten, hnone, hcs⟩
    have hclosed (inside tail : List Char) (hinside : '>' ∉ inside) :
        (inside ++ '>' :: tail).takeWhile (· != '>') = inside :=
      takeWhile_append_of_head? (by grind) (by simp)
    rw [List.append_assoc, List.append_assoc, List.append_cancel_left_eq] at hcs
    have hsame := hclosed inside tail h.bracket_not_mem
    rw [hcs, hclosed inside' tail' hwritten.bracket_not_mem] at hsame
    rwa [← hsame]
  · intro hnone
    exact ⟨d, inside, tail, h, hnone, rfl⟩

end Openings

/-- At most as many declarations are read as open in a text, and as many only if all are whole. -/
theorem length_declarations_openings (cs : List Char) :
    (declarations cs).length ≤ (openings cs).length ∧
    ((declarations cs).length = (openings cs).length ↔ ∀ s ∈ openings cs, IsWhole s) := by
  induction cs using declarations.induct with
  | case1 => simp
  | case2 c rest d tail h _ ih =>
    obtain ⟨inside, hwritten, hcs⟩ := exists_written_of_declaration? h
    obtain ⟨hle, hall⟩ := ih
    rw [declarations_of_declaration? h, hcs, openings_written hwritten, List.forall_mem_cons,
      isWhole_iff_of_written hwritten, List.forall_mem_append, ← hall]
    simp only [List.length_cons, List.length_append, List.length_map]
    refine ⟨by omega, ?_⟩
    constructor
    · intro hlength
      have hnone : openings inside = [] := List.eq_nil_of_length_eq_zero (by omega)
      exact ⟨hnone, by simp [hnone], by omega⟩
    · rintro ⟨hnone, -, hlength⟩
      simp only [hnone, List.length_nil]
      omega
  | case3 c rest h ih =>
    obtain ⟨hle, hall⟩ := ih
    rw [declarations_cons h, openings_cons]
    split
    next hopens =>
      -- a declaration opens here that cannot be read
      have hpart : ¬ IsWhole (c :: rest) := by
        rintro ⟨d, inside, tail, hwritten, -, hcs⟩
        obtain ⟨read, hread, -⟩ := exists_declaration?_of_written hwritten tail
        rw [← hcs, h] at hread
        cases hread
      rw [List.length_cons, List.forall_mem_cons]
      refine ⟨by omega, ?_⟩
      constructor
      · omega
      · exact fun hwhole => absurd hwhole.1 hpart
    next => exact ⟨hle, hall⟩

/-- A text that is read has at most as many elements as declarations open in it outside of its
comments, and as many exactly if each of these is whole. A text is refused only if nothing in it is
read, or one name twice, whatever else opens in it. -/
theorem no_declaration_lost_iff (text : String) :
    let opened := openings (withoutComments text.toList)
    (∀ dtd, parse text = .ok dtd → dtd.elements.length ≤ opened.length ∧
      (dtd.elements.length = opened.length ↔ ∀ s ∈ opened, IsWhole s)) ∧
    ((∃ fault, parse text = .error fault) ↔
      declaredElements text = [] ∨ ¬ ((declaredElements text).map (·.1)).Nodup) := by
  intro opened
  constructor
  · intro dtd h
    have hlength : dtd.elements.length = (declarations (withoutComments text.toList)).length := by
      rw [(parse_eq_ok_iff.1 h).1, declaredElements, List.length_map]
    rw [hlength]
    exact length_declarations_openings _
  · cases hparse : parse text with
    | ok dtd =>
      obtain ⟨helements, hnodup, hne⟩ := parse_eq_ok_iff.1 hparse
      rw [helements] at hnodup hne
      simp [hnodup, hne]
    | error fault =>
      refine iff_of_true ⟨fault, rfl⟩ ?_
      by_contra hread
      rw [not_or, not_not] at hread
      have hok : parse text = .ok ⟨declaredElements text⟩ :=
        parse_eq_ok_iff.2 ⟨rfl, hread.2, hread.1⟩
      rw [hparse] at hok
      cases hok

/-- A text of two declarations, the second without a content but for its blanks. -/
def barelyWholeText : String := "<!ELEMENT br EMPTY><!-- <!ELEMENT p --><!ELEMENT hr  >"

/-- A text of five declarations. The first has no content, the fourth opens before the third is
closed, and the last is not closed. -/
def lossyText : String :=
  "<!ELEMENT p><!ELEMENT br EMPTY><!ELEMENT b ANY <!ELEMENT i ANY><!ELEMENT hr EMPTY"

/-- All declarations of the one text are whole. Those of the other are not, and yet it is read. -/
theorem whole_declarations_of_texts :
    parse barelyWholeText = .ok ⟨[("br", .empty), ("hr", .children)]⟩ ∧
    (∀ s ∈ openings (withoutComments barelyWholeText.toList), IsWhole s) ∧
    parse lossyText = .ok ⟨[("br", .empty), ("b", .children)]⟩ ∧
    ∃ s ∈ openings (withoutComments lossyText.toList), ¬ IsWhole s := by
  have hwhole : parse barelyWholeText = .ok ⟨[("br", .empty), ("hr", .children)]⟩ := by
    decide +kernel
  have hlossy : parse lossyText = .ok ⟨[("br", .empty), ("b", .children)]⟩ := by decide +kernel
  have hall := ((no_declaration_lost_iff barelyWholeText).1 _ hwhole).2.1 (by decide +kernel)
  have hfewer := mt ((no_declaration_lost_iff lossyText).1 _ hlossy).2.2 (by decide +kernel)
  refine ⟨hwhole, hall, hlossy, ?_⟩
  simpa only [not_forall, exists_prop] using hfewer

/-- Five declarations open in a text that is read without an error, and it has two elements. -/
theorem lossyText_read :
    parse lossyText = .ok ⟨[("br", .empty), ("b", .children)]⟩ ∧
    (openings (withoutComments lossyText.toList)).length = 5 := by
  decide +kernel

end DeliveryPipeline.Dtd
