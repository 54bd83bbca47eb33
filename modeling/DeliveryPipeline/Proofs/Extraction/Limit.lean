import DeliveryPipeline.Factory.Declared
import DeliveryPipeline.Proofs.Extraction.Visits
import Mathlib.Algebra.GroupWithZero.Nat

/-!
# The limit on yielded descriptors

Every visit uses up a binding of the table or a part of the limit, so an extraction ends after so
many visits, whatever its handlers yield. The limit decides nothing but whether the extraction may
go on. One that succeeds succeeds alike under every limit that its handlers keep to, and under a
smaller limit it ends with an error at the handler that exceeds it.
-/
namespace DeliveryPipeline

/-- How many descriptors a handler yields when it is made. -/
def Creation.yieldCount (made : Creation) : Nat :=
  if made.handler.capabilities.selfExpanding then made.yields.length else 0

/-- How many descriptors the handlers that have been made have yielded. -/
def Extraction.yieldCount (x : Extraction) : Nat :=
  (x.created.map Creation.yieldCount).sum

namespace Workshop

variable {w : Workshop}

/-- The workshop with another limit. -/
def withLimit (w : Workshop) (limit : Nat) : Workshop :=
  { w with maxExpansions := limit }

section Ending

/-- Extraction from a point on, given up after so many visits. It recurs on that number alone, so
nothing about the limit goes into it. -/
def proceedWithin (w : Workshop) :
    Nat → Nat → List WorkItem → Extraction → Option (Except Error Extraction)
  | _, _, [], x => some (.ok x)
  | 0, _, _ :: _, _ => none
  | allowed + 1, expansions, item :: later, x =>
    match w.visit expansions item x with
    | .error e => some (.error e)
    | .ok (x', items) =>
      w.proceedWithin allowed (expansions + items.length) (items ++ later) x'

/-- Extraction from a table, given up after so many visits. -/
def extractWithin (w : Workshop) (allowed : Nat) (t : DescriptorTable) :
    Option (Except Error Extraction) :=
  w.proceedWithin allowed 0 (initialItems t) { table := t }

theorem visitsFrom_cons (w : Workshop) (expansions : Nat) (item : WorkItem) (later : List WorkItem)
    (x : Extraction) : w.visitsFrom expansions (item :: later) x =
      ⟨item, x⟩ :: match w.visit expansions item x with
        | .error _ => []
        | .ok (x', items) => w.visitsFrom (expansions + items.length) (items ++ later) x' := by
  rw [visitsFrom]
  split
  next e hvisit => rw [hvisit]
  next x' items hvisit => rw [hvisit]

/-- Every visit is paid for by an item that was pending or by a part of what the limit leaves. -/
theorem length_visitsFrom_le (w : Workshop) (expansions : Nat) (pending : List WorkItem)
    (x : Extraction) : (w.visitsFrom expansions pending x).length ≤
      pending.length + (w.maxExpansions - expansions) := by
  fun_induction visitsFrom w expansions pending x with
  | case1 => exact Nat.zero_le _
  | case2 expansions x item later e hvisit =>
    simp only [List.length_cons, List.length_nil]
    omega
  | case3 expansions x item later x' items hvisit ih =>
    have hitems := length_of_visit hvisit
    simp only [List.length_append, List.length_cons] at ih ⊢
    omega

/-- An extraction is given up exactly if it has more visits than are allowed. -/
theorem proceedWithin_eq (w : Workshop) (allowed expansions : Nat) (pending : List WorkItem)
    (x : Extraction) : w.proceedWithin allowed expansions pending x =
      if (w.visitsFrom expansions pending x).length ≤ allowed then
        some (w.proceed expansions pending x)
      else none := by
  induction allowed generalizing expansions pending x with
  | zero =>
    cases pending with
    | nil => simp [proceedWithin, visitsFrom]
    | cons item later => simp [proceedWithin, visitsFrom_cons]
  | succ allowed ih =>
    cases pending with
    | nil => simp [proceedWithin, visitsFrom]
    | cons item later =>
      rw [proceedWithin, visitsFrom_cons, proceed_cons]
      cases w.visit expansions item x with
      | error e => simp [bind, Except.bind]
      | ok visited => simp [bind, Except.bind, ih]

theorem extractWithin_eq (w : Workshop) (allowed : Nat) (t : DescriptorTable) :
    w.extractWithin allowed t =
      if (w.visits t).length ≤ allowed then some (w.extract t) else none :=
  proceedWithin_eq w allowed 0 (initialItems t) { table := t }

end Ending

section Step

variable {expansions limit : Nat} {source : Descriptor} {made : Creation} {item : WorkItem}
  {x x' : Extraction} {items : List WorkItem}

theorem length_eq_yieldCount_of_expand (h : w.expand expansions source made = .ok items) :
    items.length = made.yieldCount := by
  unfold expand at h
  unfold Creation.yieldCount
  split at h
  next hself =>
    split at h
    next => cases h
    next => rw [length_of_mapM_ok h, if_pos hself]
  next hself =>
    cases h
    rw [if_neg hself, List.length_nil]

theorem yieldCount_of_visit (h : w.visit expansions item x = .ok (x', items)) :
    x'.yieldCount = x.yieldCount + items.length := by
  rw [Extraction.yieldCount, created_of_visit h, List.map_append, List.sum_append,
    Extraction.yieldCount]
  rcases visit_cases h with ⟨hnone, rfl, -⟩ | ⟨made, hmade, hexpand, -⟩
  · rw [hnone]
    rfl
  · rw [hmade, length_eq_yieldCount_of_expand hexpand]
    simp

/-- What a handler yields under one limit it yields under another one, if that is kept to. -/
theorem expand_withLimit (h : w.expand expansions source made = .ok items)
    (hstart : expansions ≤ limit) : (w.withLimit limit).expand expansions source made =
      if expansions + items.length ≤ limit then .ok items
      else .error (.configuration (.tooManyExpansions limit source)) := by
  rw [length_eq_yieldCount_of_expand h, Creation.yieldCount]
  unfold expand at h ⊢
  split at h
  next hself =>
    have hmaxExpansions : (w.withLimit limit).maxExpansions = limit := rfl
    rw [if_pos hself, if_pos hself, hmaxExpansions]
    split at h
    next => cases h
    next =>
      by_cases hle : expansions + made.yields.length ≤ limit
      · rw [if_neg (Nat.not_lt.2 hle), if_pos hle]
        exact h
      · rw [if_pos (Nat.lt_of_not_le hle), if_neg hle]
  next hself =>
    rw [if_neg hself, if_neg hself, Nat.add_zero, if_pos hstart]
    exact h

/-- A visit whose handler is known goes alike under another limit, if that is kept to. -/
theorem settle_withLimit {made? : Option Creation}
    (h : w.settle expansions item made? x = .ok (x', items)) (hstart : expansions ≤ limit) :
    (w.withLimit limit).settle expansions item made? x =
      if expansions + items.length ≤ limit then .ok (x', items)
      else .error (.configuration (.tooManyExpansions limit item.descriptor)) := by
  cases made? with
  | none =>
    cases h
    rw [List.length_nil, Nat.add_zero, if_pos hstart]
    rfl
  | some made =>
    obtain ⟨items', hexpand, hvisited⟩ := Error.map_eq_ok_iff.1 h
    cases hvisited
    rw [settle, expand_withLimit hexpand hstart]
    split <;> rfl

/-- A visit that is possible under one limit goes alike under another one, if that is kept to. -/
theorem visit_withLimit (h : w.visit expansions item x = .ok (x', items))
    (hstart : expansions ≤ limit) : (w.withLimit limit).visit expansions item x =
      if expansions + items.length ≤ limit then .ok (x', items)
      else .error (.configuration (.tooManyExpansions limit item.descriptor)) := by
  obtain ⟨attempt, hattempt, hsettle⟩ := Error.bind_eq_ok_iff.1 h
  have hattempt' : (w.withLimit limit).factories.attempt (.created x.created.length)
      item.descriptor = .ok attempt := hattempt
  rw [visit, hattempt']
  exact settle_withLimit hsettle hstart

end Step

section Run

variable {expansions limit : Nat} {pending : List WorkItem} {x y : Extraction}

/-- What has been yielded never gets less. -/
theorem yieldCount_le_of_proceed (h : w.proceed expansions pending x = .ok y) :
    x.yieldCount ≤ y.yieldCount := by
  apply proceed_induction (P := fun _ _ x => x.yieldCount ≤ y.yieldCount) h (Nat.le_refl _)
  intro n item later x x' items visits hvisit ih
  have hx' := yieldCount_of_visit hvisit
  omega

/-- An extraction that succeeds keeps to its limit. -/
theorem yieldCount_le_maxExpansions (h : w.proceed expansions pending x = .ok y)
    (hcount : expansions = x.yieldCount) (hstart : expansions ≤ w.maxExpansions) :
    y.yieldCount ≤ w.maxExpansions := by
  have hrun := proceed_induction_counted (P := fun n _ _ x => n = x.yieldCount →
    n ≤ w.maxExpansions → y.yieldCount ≤ w.maxExpansions) h
  refine hrun (fun n hn hle => hn ▸ hle) ?_ hcount hstart
  intro n item later x x' items visits hvisit _ ih hn hle
  have hx' := yieldCount_of_visit hvisit
  have hitems := length_of_visit hvisit
  exact ih (by omega) (by omega)

/-- An extraction that succeeds ends alike under every limit that its handlers keep to. -/
theorem proceed_withLimit_of_le (h : w.proceed expansions pending x = .ok y)
    (hcount : expansions = x.yieldCount) (hle : y.yieldCount ≤ limit) :
    (w.withLimit limit).proceed expansions pending x = .ok y := by
  have hrun := proceed_induction_counted (P := fun n pending _ x => n = x.yieldCount →
    (w.withLimit limit).proceed n pending x = .ok y) h
  refine hrun (fun n _ => proceed_nil ..) ?_ hcount
  intro n item later x x' items visits hvisit hrest ih hn
  have hx' := yieldCount_of_visit hvisit
  have hy := yieldCount_le_of_proceed hrest
  rw [proceed_cons, visit_withLimit hvisit (by omega), if_pos (by omega)]
  exact ih (by omega)

/-- Under a limit that its handlers exceed, it ends with an error instead. -/
theorem proceed_withLimit_of_lt (h : w.proceed expansions pending x = .ok y)
    (hcount : expansions = x.yieldCount) (hstart : expansions ≤ limit)
    (hlt : limit < y.yieldCount) :
    ∃ last, (w.withLimit limit).proceed expansions pending x =
      .error (.configuration (.tooManyExpansions limit last)) := by
  have hrun := proceed_induction_counted (P := fun n pending _ x => n = x.yieldCount → n ≤ limit →
    ∃ last, (w.withLimit limit).proceed n pending x =
      .error (.configuration (.tooManyExpansions limit last))) h
  refine hrun (fun n hn hle => ?_) ?_ hcount hstart
  · omega
  · intro n item later x x' items visits hvisit hrest ih hn hle
    have hx' := yieldCount_of_visit hvisit
    rw [proceed_cons, visit_withLimit hvisit hle]
    -- the handler of this item exceeds the limit, or one that is made later does
    by_cases hkeeps : n + items.length ≤ limit
    · rw [if_pos hkeeps]
      exact ih (by omega) hkeeps
    · rw [if_neg hkeeps]
      exact ⟨item.descriptor, rfl⟩

end Run

/-- An extraction has at most as many visits as its table has bindings and its limit allows, and the
loop ends after these visits. What it comes to when it succeeds does not depend on the limit: it is
the same under any larger limit, and indeed under any limit that is not less than the number of
descriptors that the handlers yield. Under all others it ends with an error of the configuration. -/
theorem extract_withLimit (w : Workshop) (t : DescriptorTable) :
    (w.visits t).length ≤ (initialItems t).length + w.maxExpansions ∧
    (∀ allowed, (w.visits t).length ≤ allowed →
      w.extractWithin allowed t = some (w.extract t)) ∧
    ∀ x, w.extract t = .ok x →
      (∀ limit, w.maxExpansions ≤ limit → (w.withLimit limit).extract t = .ok x) ∧
      (∀ limit, x.yieldCount ≤ limit → (w.withLimit limit).extract t = .ok x) ∧
      ∀ limit, limit < x.yieldCount → ∃ last, (w.withLimit limit).extract t =
        .error (.configuration (.tooManyExpansions limit last)) := by
  refine ⟨length_visitsFrom_le w 0 _ _, fun allowed hle => ?_, fun x h => ?_⟩
  · rw [extractWithin_eq, if_pos hle]
  · have hcount : 0 = Extraction.yieldCount { table := t } := rfl
    have hmax := yieldCount_le_maxExpansions h hcount (Nat.zero_le _)
    refine ⟨fun limit hle => ?_, fun limit hle => ?_, fun limit hlt => ?_⟩
    · exact proceed_withLimit_of_le h hcount (Nat.le_trans hmax hle)
    · exact proceed_withLimit_of_le h hcount hle
    · exact proceed_withLimit_of_lt h hcount (Nat.zero_le limit) hlt

/-- A workshop whose one factory makes handlers that yield what they are told for the selector of
their descriptor, for the same factory again. -/
def nestingWorkshop (inside : String → List String) : Workshop where
  factories := FactoryRegistry.builtin.register "nesting" {
    name := "nesting"
    create := fun fresh d => .ok {
      handler := ⟨fresh, "nesting", { Capabilities.empty with selfExpanding := true }⟩
      yields := (inside d.selector).map fun selector =>
        { selector, declaredType := some "nesting" } } }
  profiles := ⟨"html", []⟩

/-- The table from which nesting begins at one element. -/
def nestingTable : DescriptorTable :=
  DescriptorTable.insert .empty "ul" { selector := "ul", declaredType := some "nesting" }

/-- Two items in a list, one of which has a part. -/
def listNesting : String → List String
  | "ul" => ["li", "hr"]
  | "li" => ["p"]
  | _ => []

/-- Three descriptors are yielded over two levels, so three is the least limit that will do. -/
theorem extract_listNesting_withLimit : ∃ x,
    (nestingWorkshop listNesting).extract nestingTable = .ok x ∧ x.yieldCount = 3 ∧
    ((nestingWorkshop listNesting).withLimit 3).extract nestingTable = .ok x ∧
    ∃ last, ((nestingWorkshop listNesting).withLimit 2).extract nestingTable =
      .error (.configuration (.tooManyExpansions 2 last)) := by
  have hcount : ((nestingWorkshop listNesting).extract nestingTable).toOption.map
      Extraction.yieldCount = some 3 := by decide +kernel
  cases hextract : (nestingWorkshop listNesting).extract nestingTable with
  | error e => simp [hextract, Except.toOption] at hcount
  | ok x =>
    have hx : x.yieldCount = 3 := by simpa [hextract, Except.toOption] using hcount
    obtain ⟨-, hsame, hexceeded⟩ := (extract_withLimit _ _).2.2 x hextract
    exact ⟨x, rfl, hx, hsame 3 (by omega), hexceeded 2 (by omega)⟩

end Workshop

end DeliveryPipeline
