import DeliveryPipeline.DescriptorTable.Build
import DeliveryPipeline.Diagnostics
import DeliveryPipeline.Factory

/-!
# Handler extraction

Extraction visits the bindings of a descriptor table in order and makes a handler for each. What a
self-expanding handler yields is visited right after it, before the bindings that were still to
come. A yielded descriptor without a handler is listed in the table. The items still to be visited
are a stack. The number of yielded descriptors has a limit, so extraction ends: each visit uses up a
binding or a part of the limit.
-/
namespace DeliveryPipeline

structure Workshop where
  factories : FactoryRegistry
  profiles : ProfileSet
  schema : Option Schema := none
  maxExpansions : Nat := 10000

structure WorkItem where
  descriptor : Descriptor
  targets : List String
  yielded : Bool
deriving DecidableEq

structure Extraction where
  table : DescriptorTable
  created : List Creation := []
  classification : Classification := {}
  events : List Event := []

namespace Extraction

def log (x : Extraction) (events : List Event) : Extraction :=
  { x with events := x.events ++ events }

def keep (x : Extraction) (item : WorkItem) : Extraction :=
  { x with table := x.table.insertAll item.targets item.descriptor }

/-- Record a new handler as created, and classify it under the targets of its item. -/
def enroll (x : Extraction) (item : WorkItem) (made : Creation) : Extraction :=
  { x with
    created := x.created ++ [made]
    classification := x.classification.add made.handler item.descriptor item.targets }

/-- Let a self-registering handler register further ones. -/
def letRegister (x : Extraction) (made : Creation) : Extraction :=
  if made.handler.capabilities.selfRegistering then
    { x with classification := made.register x.classification }
  else x

end Extraction

/-- What came of trying to make a handler: the handler if it was made, and the events. -/
structure Attempt where
  made : Option Creation
  events : List Event := []

/-- Let a factory make a handler. Only an invalid descriptor is an error. -/
def Factory.attempt (f : Factory) (fresh : HandlerId) (d : Descriptor) : Except Error Attempt :=
  match f.create fresh d with
  | .ok made => .ok ⟨some made, []⟩
  | .error (.invalid message) => .error (.factory d.label message)
  | .error (.failed cause) =>
    let message := "'" ++ f.name ++ "' factory could not create a handler"
    .ok ⟨none, [Event.failure d message cause]⟩
  | .error (.panicked payload) =>
    let message := "'" ++ f.name ++ "' factory panicked"
    .ok ⟨none, [Event.failure d message (FactoryFailure.panicMessage payload)]⟩

namespace FactoryRegistry

/-- Let the factory of a type make a handler. -/
def attemptAs (r : FactoryRegistry) (t : String) (fresh : HandlerId) (d : Descriptor) :
    Except Error Attempt :=
  match r.factoryFor? t with
  | some f => f.attempt fresh d
  | none =>
    .ok ⟨none, [Event.about d ("no handler factory registered for resource type '" ++ t ++ "'")]⟩

/-- Let the factory of a descriptor's type make a handler. A native reference that its native
factory has failed on is not tried there again. -/
def attemptByType (r : FactoryRegistry) (fresh : HandlerId) (d : Descriptor) :
    Except Error Attempt :=
  match d.resourceType? with
  | none =>
    if d.resource.isSome && !d.isNativeReference then
      .ok ⟨none, [Event.about d "resource type could not be determined"]⟩
    else .ok ⟨none, []⟩
  | some t =>
    if d.isNativeReference && Text.sameIgnoringCase t nativeType then .ok ⟨none, []⟩
    else r.attemptAs t fresh d

/-- Let a factory make a handler: the native factory first when the resource is a native path, and
the factory of the type when that made none. -/
def attempt (r : FactoryRegistry) (fresh : HandlerId) (d : Descriptor) : Except Error Attempt :=
  if d.isNativeReference then
    match r.factoryFor? nativeType with
    | none => .error (.configuration (.nativeFactoryMissing d))
    | some f => do
      let first ← f.attempt fresh d
      if first.made.isSome then return first
      let second ← r.attemptByType fresh d
      return ⟨second.made, first.events ++ second.events⟩
  else r.attemptByType fresh d

end FactoryRegistry

namespace Workshop

def yieldedItem (w : Workshop) (d : Descriptor) : Except Error WorkItem := do
  return ⟨d, ← targetsFor w.profiles w.schema d, true⟩

theorem length_of_mapM_ok {α β : Type} {f : α → Except Error β} {xs : List α} {ys : List β}
    (h : xs.mapM f = .ok ys) : ys.length = xs.length := by
  induction xs generalizing ys with
  | nil => cases h; rfl
  | cons x xs ih =>
    rw [List.mapM_cons] at h
    cases hx : f x with
    | error e => rw [hx] at h; cases h
    | ok y =>
      cases hr : xs.mapM f with
      | error e => rw [hx, hr] at h; cases h
      | ok zs => rw [hx, hr] at h; cases h; simp [ih hr]

/-- The items that a new handler yields, if the limit allows them with those yielded before. -/
def expand (w : Workshop) (expansions : Nat) (source : Descriptor) (made : Creation) :
    Except Error (List WorkItem) :=
  if made.handler.capabilities.selfExpanding then
    if expansions + made.yields.length > w.maxExpansions then
      .error (.configuration (.tooManyExpansions w.maxExpansions source))
    else made.yields.mapM w.yieldedItem
  else .ok []

theorem length_of_expand {w : Workshop} {expansions : Nat} {source : Descriptor}
    {made : Creation} {items : List WorkItem}
    (h : w.expand expansions source made = .ok items) :
    items.length = 0 ∨ expansions + items.length ≤ w.maxExpansions := by
  unfold expand at h
  split at h
  next =>
    split at h
    next => cases h
    next hle =>
      rw [length_of_mapM_ok h]
      omega
  next => cases h; exact .inl rfl

/-- The rest of a visit, once it is known what the factories make of its item. -/
def settle (w : Workshop) (expansions : Nat) (item : WorkItem) (made : Option Creation)
    (x : Extraction) : Except Error (Extraction × List WorkItem) :=
  match made with
  | none => .ok (if item.yielded then x.keep item else x, [])
  | some made =>
    (w.expand expansions item.descriptor made).map fun items =>
      ((x.enroll item made).letRegister made, items)

/-- Visit an item when so many descriptors have been yielded: what has been done then, and the items
that the new handler yields. -/
def visit (w : Workshop) (expansions : Nat) (item : WorkItem) (x : Extraction) :
    Except Error (Extraction × List WorkItem) := do
  let attempt ← w.factories.attempt (.created x.created.length) item.descriptor
  w.settle expansions item attempt.made (x.log attempt.events)

theorem length_of_visit {w : Workshop} {expansions : Nat} {item : WorkItem} {x x' : Extraction}
    {items : List WorkItem} (h : w.visit expansions item x = .ok (x', items)) :
    items.length = 0 ∨ expansions + items.length ≤ w.maxExpansions := by
  obtain ⟨attempt, -, hsettle⟩ := Error.bind_eq_ok_iff.1 h
  unfold settle at hsettle
  split at hsettle
  next => cases hsettle; exact .inl rfl
  next =>
    obtain ⟨items', hexpand, hitems⟩ := Error.map_eq_ok_iff.1 hsettle
    cases hitems
    exact length_of_expand hexpand

/-- Visit the item on top of the stack, put what it yields on top, and go on until the stack is
empty. The top is at the end, so the yielded items are put there in reverse. -/
def drive (w : Workshop) (expansions : Nat) (stack : Array WorkItem) (x : Extraction) :
    Except Error Extraction :=
  match _top : stack.back? with
  | none => .ok x
  | some item =>
    match _visited : w.visit expansions item x with
    | .error e => .error e
    | .ok (x', items) =>
      w.drive (expansions + items.length) (stack.pop ++ items.reverse.toArray) x'
termination_by w.maxExpansions - expansions + stack.size
decreasing_by
  have hpos : 0 < stack.size := by
    rw [Array.size_pos_iff]
    rintro rfl
    simp at _top
  have := length_of_visit _visited
  simp only [Array.size_append, Array.size_pop, List.size_toArray, List.length_reverse]
  omega

/-- The items for the bindings of a table, without those that are listed as schemas only. -/
def initialItems (t : DescriptorTable) : List WorkItem :=
  (t.bindings.filter fun b => b.2.any (· ≠ schemaTarget)).map fun b => ⟨b.1, b.2, false⟩

/-- Make and classify a handler for every binding of a table. -/
def extract (w : Workshop) (t : DescriptorTable) : Except Error Extraction :=
  w.drive 0 (initialItems t).reverse.toArray { table := t }

end Workshop

end DeliveryPipeline
