import DeliveryPipeline.Schema.Dtd

/-!
# Taking comments out

A comment goes from its opening mark to the first closing mark behind that. What holds no opening
bracket is kept as it stands, and so is the mark that a declaration begins with.
-/
namespace DeliveryPipeline.Dtd

variable {cs tail rest : List Char}

@[simp] theorem withoutComments_nil : withoutComments [] = [] := by
  unfold withoutComments
  rfl

/-- Reading goes on behind a comment. -/
theorem withoutComments_of_comment (h : afterComment? cs = some tail) :
    withoutComments cs = withoutComments tail := by
  cases cs with
  | nil => cases h
  | cons c cs =>
    rw [withoutComments]
    split
    next tail' htail' => rw [Option.some.inj (h.symm.trans htail')]
    next hnone => exact absurd (h.symm.trans hnone) (by simp)

/-- Where no comment begins, a character is kept. -/
theorem withoutComments_cons {c : Char} (h : afterComment? (c :: cs) = none) :
    withoutComments (c :: cs) = c :: withoutComments cs := by
  rw [withoutComments]
  split
  next tail htail => exact absurd (h.symm.trans htail) (by simp)
  next => rfl

theorem afterComment?_of_ne {c : Char} (hc : c ≠ '<') : afterComment? (c :: cs) = none := by
  simp [afterComment?, commentOpening, Text.afterPrefix?, Ne.symm hc]

theorem withoutComments_append_of_not_mem (h : '<' ∉ cs) (rest : List Char) :
    withoutComments (cs ++ rest) = cs ++ withoutComments rest := by
  induction cs with
  | nil => rfl
  | cons c cs ih =>
    rw [List.mem_cons, not_or] at h
    rw [List.cons_append, withoutComments_cons (afterComment?_of_ne (Ne.symm h.1)), ih h.2,
      List.cons_append]

/-- The mark of a declaration is not that of a comment. -/
theorem withoutComments_declarationOpening (rest : List Char) :
    withoutComments (declarationOpening ++ rest) = declarationOpening ++ withoutComments rest := by
  have hmark : afterComment? (declarationOpening ++ rest) = none := by
    simp [afterComment?, commentOpening, declarationOpening, Text.afterPrefix?]
  have hletters : '<' ∉ declarationOpening.tail := by decide
  calc withoutComments (declarationOpening ++ rest)
    _ = '<' :: withoutComments (declarationOpening.tail ++ rest) := withoutComments_cons hmark
    _ = declarationOpening ++ withoutComments rest := by
      rw [withoutComments_append_of_not_mem hletters]
      rfl

/-- A closing mark has its bracket at the end alone. So the first one behind a text that holds none
is the one that follows the text. -/
theorem afterFirst?_commentClosing {body : List Char} (hbody : ¬ commentClosing <:+: body)
    (rest : List Char) :
    afterFirst? commentClosing (body ++ commentClosing ++ rest) = some rest := by
  induction body with
  | nil => simp [commentClosing, afterFirst?, Text.afterPrefix?]
  | cons c body ih =>
    have hlater : ¬ commentClosing <:+: body := fun h => hbody (List.infix_cons h)
    have hhere : Text.afterPrefix? commentClosing (c :: body ++ commentClosing ++ rest) = none := by
      rw [Option.eq_none_iff_forall_ne_some]
      intro tail htail
      rw [Text.afterPrefix?_eq_some_iff] at htail
      -- two characters of the text would be dashes, and the third the bracket
      rcases body with _ | ⟨x, _ | ⟨y, body⟩⟩
      · simp [commentClosing] at htail
      · simp [commentClosing] at htail
      · simp only [commentClosing, List.cons_append, List.cons.injEq] at htail
        obtain ⟨rfl, rfl, rfl, -⟩ := htail
        exact hbody ⟨[], body, rfl⟩
    simp only [List.cons_append] at hhere ⊢
    rw [afterFirst?, hhere]
    exact ih hlater

/-- A comment is taken out up to its closing mark. -/
theorem withoutComments_comment {body : List Char} (hbody : ¬ commentClosing <:+: body)
    (rest : List Char) :
    withoutComments (commentOpening ++ body ++ commentClosing ++ rest) = withoutComments rest := by
  apply withoutComments_of_comment
  rw [afterComment?, Option.bind_eq_some_iff]
  refine ⟨body ++ commentClosing ++ rest, ?_, afterFirst?_commentClosing hbody rest⟩
  rw [Text.afterPrefix?_eq_some_iff]
  simp only [List.append_assoc]

end DeliveryPipeline.Dtd
