import DeliveryPipeline.Factory.Declared
import DeliveryPipeline.Proofs.Extraction.Visits
import DeliveryPipeline.Proofs.Grouping.Transpose

/-!
# What is visited, and with which targets

An extraction visits the bindings of its table and what handlers yield. The targets of a binding are
those that list it, the targets of a yielded descriptor those of its selector. A binding that is
listed as a schema only is passed over; a yielded descriptor never is.
-/
namespace DeliveryPipeline

/-- The item stands for a binding of the table, with all targets that list it. -/
structure WorkItem.IsBinding (i : WorkItem) (t : DescriptorTable) : Prop where
  yielded_eq : i.yielded = false
  targets_eq : i.targets = t.keysOf i.descriptor
  exists_target : ∃ target ∈ i.targets, target ≠ schemaTarget

/-- The item has the targets of its descriptor: those that the table lists it under, or those of its
selector when it has been yielded. -/
def WorkItem.Aimed (i : WorkItem) (w : Workshop) (t : DescriptorTable) : Prop :=
  if i.yielded then targetsFor w.profiles w.schema i.descriptor = .ok i.targets
  else i.targets = t.keysOf i.descriptor

/-- The targets of a descriptor that says what the schema is, and applies to no element. -/
def SchemaOnly (targets : List String) : Prop :=
  targets ≠ [] ∧ ∀ target ∈ targets, target = schemaTarget

instance (targets : List String) : Decidable (SchemaOnly targets) :=
  inferInstanceAs (Decidable (_ ∧ _))

/-- All events of an attempt tell of the descriptor that it was made for. -/
def Attempt.IsAbout (attempt : Attempt) (d : Descriptor) : Prop :=
  ∀ e ∈ attempt.events, e.descriptor = some d

section Attempts

variable {fresh : HandlerId} {d : Descriptor} {attempt : Attempt}

theorem Factory.isAbout_of_attempt {f : Factory} (h : f.attempt fresh d = .ok attempt) :
    attempt.IsAbout d := by
  unfold Factory.attempt at h
  split at h <;> cases h <;> simp [Attempt.IsAbout, Event.failure]

namespace FactoryRegistry

variable {r : FactoryRegistry}

theorem isAbout_of_attemptAs {t : String} (h : r.attemptAs t fresh d = .ok attempt) :
    attempt.IsAbout d := by
  unfold attemptAs at h
  split at h
  next f _ => exact f.isAbout_of_attempt h
  next => cases h; simp [Attempt.IsAbout, Event.about]

theorem isAbout_of_attemptByType (h : r.attemptByType fresh d = .ok attempt) :
    attempt.IsAbout d := by
  unfold attemptByType at h
  split at h
  next =>
    split at h <;> cases h <;> simp [Attempt.IsAbout, Event.about]
  next =>
    split at h
    next => cases h; simp [Attempt.IsAbout]
    next => exact isAbout_of_attemptAs h

theorem isAbout_of_attempt (h : r.attempt fresh d = .ok attempt) : attempt.IsAbout d := by
  unfold FactoryRegistry.attempt at h
  split at h
  next =>
    split at h
    next => cases h
    next f _ =>
      obtain ⟨first, hfirst, h⟩ := Error.bind_eq_ok_iff.1 h
      have habout := f.isAbout_of_attempt hfirst
      split at h
      next => cases h; exact habout
      next =>
        obtain ⟨second, hsecond, h⟩ := Error.bind_eq_ok_iff.1 h
        cases h
        intro e he
        rcases List.mem_append.1 he with he | he
        · exact habout e he
        · exact isAbout_of_attemptByType hsecond e he
  next => exact isAbout_of_attemptByType h

end FactoryRegistry

end Attempts

namespace Workshop

variable {w : Workshop} {t : DescriptorTable}

theorem isBinding_of_initialItems {i : WorkItem} (h : i ∈ initialItems t) : i.IsBinding t := by
  simp only [initialItems, List.mem_map, List.mem_filter, List.any_eq_true, decide_eq_true_eq] at h
  obtain ⟨⟨d, targets⟩, ⟨hbinding, htarget⟩, rfl⟩ := h
  exact ⟨rfl, Grouping.keys_of_mem_transpose hbinding, htarget⟩

theorem aimed_of_yields {v : Visit} {i : WorkItem} (h : w.Yields v i) :
    i.yielded = true ∧ targetsFor w.profiles w.schema i.descriptor = .ok i.targets := by
  obtain ⟨made, -, -, -, hitem⟩ := h
  obtain ⟨targets, htargets, hi⟩ := yieldedItem_eq_ok_iff.1 hitem
  rw [hi]
  exact ⟨rfl, htargets⟩

/-- Whatever is visited has the targets of its descriptor. -/
theorem aimed_of_visits {v : Visit} (hv : v ∈ w.visits t) : v.item.Aimed w t := by
  unfold WorkItem.Aimed
  rcases origin_of_visits hv with hinitial | ⟨u, -, hyields⟩
  · have hbinding := isBinding_of_initialItems hinitial
    simp [hbinding.yielded_eq, ← hbinding.targets_eq]
  · obtain ⟨hyielded, htargets⟩ := aimed_of_yields hyields
    rw [if_pos hyielded]
    exact htargets

/-- The events of a visit tell of its descriptor. -/
theorem descriptor_of_eventsAt {v : Visit} {e : Event} (he : e ∈ w.eventsAt v) :
    e.descriptor = some v.item.descriptor := by
  unfold eventsAt at he
  cases hattempt : w.attemptAt v with
  | error _ => simp [hattempt, Except.toOption] at he
  | ok attempt =>
    rw [hattempt] at he
    exact FactoryRegistry.isAbout_of_attempt hattempt e he

/-- A factory is invoked for a descriptor that only says what the schema is if a handler has yielded
it, whether extraction succeeds or not. When it succeeds, a factory is invoked for all that is
yielded, and all handlers and events arise from such visits. -/
theorem schemaOnly_visited_iff_yielded (w : Workshop) (t : DescriptorTable) :
    (∀ v ∈ w.visits t, SchemaOnly v.item.targets → ∃ u ∈ w.visits t, w.Yields u v.item) ∧
    ∀ x, w.extract t = .ok x →
      ((∃ v ∈ w.visits t, SchemaOnly v.item.targets) ↔
        ∃ u ∈ w.visits t, ∃ i, w.Yields u i ∧ SchemaOnly i.targets) ∧
      (∀ made ∈ x.created, ∃ v ∈ w.visits t, w.madeAt v = some made) ∧
      ∀ e ∈ x.events, ∃ v ∈ w.visits t, e ∈ w.eventsAt v ∧
        e.descriptor = some v.item.descriptor := by
  have honly : ∀ v ∈ w.visits t, SchemaOnly v.item.targets →
      ∃ u ∈ w.visits t, w.Yields u v.item := by
    intro v hv honly
    rcases origin_of_visits hv with hinitial | hyielded
    · obtain ⟨target, htarget, hother⟩ := (isBinding_of_initialItems hinitial).exists_target
      exact absurd (honly.2 target htarget) hother
    · exact hyielded
  refine ⟨honly, fun x hx => ⟨⟨?_, ?_⟩, ?_, ?_⟩⟩
  · rintro ⟨v, hv, hschema⟩
    obtain ⟨u, hu, hyields⟩ := honly v hv hschema
    exact ⟨u, hu, v.item, hyields, hschema⟩
  · rintro ⟨u, hu, i, hyields, hschema⟩
    obtain ⟨v, hv, rfl⟩ := visited_of_yields hx hu hyields
    exact ⟨v, hv, hschema⟩
  · intro made hmade
    rwa [created_of_extract hx, List.mem_filterMap] at hmade
  · intro e he
    rw [events_of_extract hx, List.mem_flatMap] at he
    obtain ⟨v, hv, he⟩ := he
    exact ⟨v, hv, he, descriptor_of_eventsAt he⟩

/-- A workshop with a factory of handlers that yield a declared handler under the schema target. -/
def yielderWorkshop : Workshop where
  factories := FactoryRegistry.builtin.register "yielder" {
    name := "yielder"
    create := fun fresh _ => .ok {
      handler := ⟨fresh, "yielder", { Capabilities.empty with selfExpanding := true }⟩
      yields := [{
        selector := schemaTarget, declaredType := some declaredType
        parameters := .ofList [("modes", "tree"), ("roles", "serialize")] }] } }
  profiles := ⟨"html", []⟩

/-- A yielded descriptor gets a handler although it only says what the schema is. -/
theorem schemaOnly_gets_handler :
    ∃ v ∈ yielderWorkshop.visits
        (DescriptorTable.insert .empty "p" { selector := "p", declaredType := some "yielder" }),
      SchemaOnly v.item.targets ∧ (yielderWorkshop.madeAt v).isSome = true := by
  decide +kernel

end Workshop

end DeliveryPipeline
