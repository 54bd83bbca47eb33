import DeliveryPipeline.Proofs.Extraction.Visits

/-!
# Comparing two extractions

Two extractions are compared by what one chooses to see of them. If every visit, made in states that
look alike, leads to states that look alike and yields the same items, or fails with the same error,
then so do the whole extractions.
-/
namespace DeliveryPipeline.Workshop

variable {w w' : Workshop}

/-- What two extractions have in common at each visit they have in common at the end. -/
theorem map_proceed_eq {γ : Type} {f : Extraction → γ}
    (hvisit : ∀ n item x x', f x = f x' →
      (w.visit n item x).map (fun v => (f v.1, v.2)) =
        (w'.visit n item x').map fun v => (f v.1, v.2))
    (expansions : Nat) (pending : List WorkItem) {x x' : Extraction} (h : f x = f x') :
    (w.proceed expansions pending x).map f = (w'.proceed expansions pending x').map f := by
  fun_induction visitsFrom w expansions pending x generalizing x' with
  | case1 expansions x =>
    rw [proceed_nil, proceed_nil]
    exact congrArg Except.ok h
  | case2 expansions x item later e he =>
    rcases Error.map_eq_map_iff.1 (hvisit expansions item x x' h) with ⟨e', hx, hx'⟩ | ⟨v, -, hx, -⟩
    · rw [proceed_cons, proceed_cons, hx, hx']
      rfl
    · rw [he] at hx
      cases hx
  | case3 expansions x item later y items hok ih =>
    rcases Error.map_eq_map_iff.1 (hvisit expansions item x x' h) with
      ⟨e, hx, -⟩ | ⟨v, v', hx, hx', hsame⟩
    · rw [hok] at hx
      cases hx
    · rw [hok] at hx
      cases hx
      obtain ⟨hstate, hitems⟩ := Prod.mk.inj hsame
      rw [proceed_cons, proceed_cons, hok, hx']
      subst hitems
      exact ih hstate

end DeliveryPipeline.Workshop
