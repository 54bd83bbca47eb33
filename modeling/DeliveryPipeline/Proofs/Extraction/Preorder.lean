import DeliveryPipeline.Extraction
import Mathlib.Tactic.ByContra

/-!
# Extraction in preorder

Extraction keeps the items still to be visited on a stack. Said without a stack, it goes through the
forest of all items in preorder: it enters an item, then goes through what the item yields, and only
then to the next item of the same level. Both give the same result, errors included.
-/
namespace DeliveryPipeline

/-- How far a traversal has come, with the number of descriptors yielded so far. -/
structure Progress where
  done : Extraction
  expansions : Nat := 0

namespace Workshop

/-- Enter an item: make its handler, record it, find the targets of all that it yields, and let it
register further handlers. A yielded descriptor without a handler is listed under its targets. -/
def enter (w : Workshop) (item : WorkItem) (s : Progress) :
    Except Error (Progress × List WorkItem) := do
  let d := item.descriptor
  let attempt ← w.factories.attempt (.created s.done.created.length) d
  let events := s.done.events ++ attempt.events
  match attempt.made with
  | none =>
    let table :=
      if item.yielded then item.targets.foldl (fun t target => t.insert target d) s.done.table
      else s.done.table
    return ({ s with done := { s.done with table, events } }, [])
  | some made =>
    let created := s.done.created ++ [made]
    let classified := s.done.classification.add made.handler d item.targets
    let yields := if made.handler.capabilities.selfExpanding then made.yields else []
    let expansions := s.expansions + yields.length
    if made.handler.capabilities.selfExpanding && decide (expansions > w.maxExpansions) then
      throw (.configuration (.tooManyExpansions w.maxExpansions d))
    let below ← yields.mapM w.yieldedItem
    let classification :=
      if made.handler.capabilities.selfRegistering then made.register classified else classified
    return (⟨{ s.done with created, classification, events }, expansions⟩, below)

theorem enroll_letRegister (x : Extraction) (events : List Event) (item : WorkItem)
    (made : Creation) : ((x.log events).enroll item made).letRegister made =
      let classified := x.classification.add made.handler item.descriptor item.targets
      { x with
        created := x.created ++ [made]
        classification :=
          if made.handler.capabilities.selfRegistering then made.register classified
          else classified
        events := x.events ++ events } := by
  unfold Extraction.letRegister
  split <;> simp_all [Extraction.enroll, Extraction.log]

/-- Entering an item does what a visit from the stack does. -/
theorem enter_eq (w : Workshop) (item : WorkItem) (s : Progress) :
    w.enter item s = (w.visit s.expansions item s.done).map fun visited =>
      (⟨visited.1, s.expansions + visited.2.length⟩, visited.2) := by
  cases hattempt : w.factories.attempt (.created s.done.created.length) item.descriptor with
  | error e => simp [enter, visit, hattempt, bind, Except.bind, Except.map]
  | ok attempt =>
    cases hmade : attempt.made with
    | none =>
      cases hyielded : item.yielded <;>
        simp [enter, visit, settle, hattempt, hmade, hyielded, bind, Except.bind, Except.map, pure,
          Except.pure, Extraction.log, Extraction.keep, DescriptorTable.insertAll]
    | some made =>
      simp only [enter, visit, settle, hattempt, hmade, bind, Except.bind, expand,
        enroll_letRegister]
      cases hexpands : made.handler.capabilities.selfExpanding with
      | false => simp [pure, Except.pure, Except.map]
      | true =>
        by_cases hlimit : s.expansions + made.yields.length > w.maxExpansions
        · simp [hlimit, throw, throwThe, MonadExceptOf.throw, Except.map]
        · cases hbelow : made.yields.mapM w.yieldedItem with
          | error e => simp [hlimit, hbelow, Except.map]
          | ok below =>
            have hlength := length_of_mapM_ok hbelow
            simp [hlimit, hbelow, hlength, pure, Except.pure, Except.map]

theorem expansions_of_enter {w : Workshop} {item : WorkItem} {s t : Progress}
    {below : List WorkItem} (h : w.enter item s = .ok (t, below)) :
    t.expansions = s.expansions + below.length ∧
      (below.length = 0 ∨ t.expansions ≤ w.maxExpansions) := by
  rw [enter_eq] at h
  cases hv : w.visit s.expansions item s.done with
  | error e => rw [hv] at h; cases h
  | ok visited =>
    rw [hv] at h
    cases h
    exact ⟨rfl, length_of_visit hv⟩

/-- Go through items in order, and below each item through what it yields before the next one. -/
def walk (w : Workshop) (items : List WorkItem) (s : Progress) :
    Except Error { u : Progress // s.expansions ≤ u.expansions } :=
  match items with
  | [] => .ok ⟨s, Nat.le_refl _⟩
  | item :: later =>
    match _entered : w.enter item s with
    | .error e => .error e
    | .ok (t, below) =>
      match w.walk below t with
      | .error e => .error e
      | .ok ⟨u, _htu⟩ =>
        match w.walk later u with
        | .error e => .error e
        | .ok ⟨v, huv⟩ => .ok ⟨v, by have := expansions_of_enter _entered; omega⟩
termination_by w.maxExpansions - s.expansions + items.length
decreasing_by
  all_goals
    have := expansions_of_enter _entered
    simp only [List.length_cons]
    omega

/-- Where going through items leads to. -/
def traverse (w : Workshop) (items : List WorkItem) (s : Progress) : Except Error Progress :=
  (w.walk items s).map Subtype.val

@[simp] theorem traverse_nil (w : Workshop) (s : Progress) : w.traverse [] s = .ok s := by
  rw [traverse, walk]
  rfl

theorem traverse_cons (w : Workshop) (item : WorkItem) (later : List WorkItem) (s : Progress) :
    w.traverse (item :: later) s =
      w.enter item s >>= fun entered =>
        w.traverse entered.2 entered.1 >>= w.traverse later := by
  rw [traverse, walk]
  split
  next e he => rw [he]; rfl
  next t below ht =>
    simp only [ht, bind, Except.bind, traverse]
    cases w.walk below t with
    | error e => rfl
    | ok u =>
      simp only [Except.map]
      cases w.walk later u.1 with
      | error e => rfl
      | ok v => rfl

theorem traverse_append (w : Workshop) (items later : List WorkItem) (s : Progress) :
    w.traverse (items ++ later) s = w.traverse items s >>= w.traverse later := by
  induction items generalizing s with
  | nil => simp [bind, Except.bind]
  | cons item rest ih =>
    simp only [List.cons_append, traverse_cons, bind, Except.bind]
    cases w.enter item s with
    | error e => rfl
    | ok entered =>
      dsimp only
      cases w.traverse entered.2 entered.1 with
      | error e => rfl
      | ok u => exact ih u

/-- Extraction without a stack: through the bindings of a table in order, except those that are
listed under the schema target only. -/
def preorder (w : Workshop) (t : DescriptorTable) : Except Error Extraction :=
  let bindings := t.bindings.filter fun b => !b.2.all (· = schemaTarget)
  (w.traverse (bindings.map fun b => ⟨b.1, b.2, false⟩) ⟨{ table := t }, 0⟩).map Progress.done

/-- The items on a stack from its top on are what a traversal would go through. -/
theorem drive_eq_traverse (w : Workshop) (expansions : Nat) (stack : Array WorkItem)
    (x : Extraction) : w.drive expansions stack x =
      (w.traverse stack.toList.reverse ⟨x, expansions⟩).map Progress.done := by
  -- a visit takes the last item off the array and puts its yields there in reverse, which read from
  -- the end are the yields in order, followed by the items that were waiting
  fun_induction drive w expansions stack x with
  | case1 expansions stack x htop =>
    rw [Array.back?_eq_none_iff] at htop
    subst htop
    simp [Except.map]
  | case2 expansions stack x item htop e hvisit =>
    obtain ⟨rest, rfl⟩ := Array.back?_eq_some_iff.mp htop
    simp [traverse_cons, enter_eq, hvisit, bind, Except.bind, Except.map]
  | case3 expansions stack x item htop x' items hvisit ih =>
    obtain ⟨rest, rfl⟩ := Array.back?_eq_some_iff.mp htop
    rw [ih]
    simp [traverse_cons, traverse_append, enter_eq, hvisit, bind, Except.bind, Except.map]

/-- The stack visits what the traversal without it enters, in the same order, so extraction ends
with the same error, or with the same handlers, classification, events and table. -/
theorem extract_eq_preorder (w : Workshop) (t : DescriptorTable) :
    w.extract t = w.preorder t := by
  have hinitial : initialItems t =
      (t.bindings.filter fun b => !b.2.all (· = schemaTarget)).map fun b =>
        (⟨b.1, b.2, false⟩ : WorkItem) := by
    simp [initialItems, List.not_all_eq_any_not]
  rw [extract, drive_eq_traverse, preorder, ← hinitial]
  simp

end Workshop

end DeliveryPipeline
