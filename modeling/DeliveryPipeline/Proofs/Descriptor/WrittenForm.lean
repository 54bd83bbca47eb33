import DeliveryPipeline.Descriptor.Record
import Mathlib.Data.List.Forall2

/-!
# The written form of descriptors

A descriptor is written as a record of its fields, and what is not written is read as absent, or as
the default of its field. So the written form is read as the descriptor again, and no two
descriptors share it. The type is written under one name and read under two.
-/
namespace DeliveryPipeline

namespace Value

/-- The values that a record has under some names. -/
def under (names : List String) (fields : List (String × Value)) : List Value :=
  (fields.filter fun f => names.contains f.1).map Prod.snd

/-- The record of a structure: its fields in order, without those that have no value. -/
def ofSlots (slots : List (String × Option Value)) : Value :=
  .record (slots.filterMap fun s => s.2.map fun v => (s.1, v))

section Field

variable {fields : List (String × Value)} {slots : List (String × Option Value)}
  {position : Nat} {names : List String} {name : String} {v? : Option Value}

theorem field?_record : (record fields).field? position names =
    match under names fields with
    | [] => some none
    | [v] => some (some v)
    | _ => none := by
  rw [field?, under]
  generalize (fields.filter fun f => names.contains f.1) = found
  rcases found with _ | ⟨f, _ | ⟨g, rest⟩⟩ <;> rfl

/-- In the record of a structure, a field is found as it is if no other goes by one of its names. -/
theorem field?_ofSlots (h : slots.filter (fun s => names.contains s.1) = [(name, v?)]) :
    (ofSlots slots).field? position names = some v? := by
  have hunder : under names (slots.filterMap fun s => s.2.map fun v => (s.1, v)) =
      (slots.filter fun s => names.contains s.1).filterMap Prod.snd := by
    clear h
    induction slots with
    | nil => rfl
    | cons s rest ih =>
      obtain ⟨n, _ | v⟩ := s <;> by_cases hn : n ∈ names <;> simp_all [under]
  rw [ofSlots, field?_record, hunder, h]
  cases v? <;> rfl

end Field

/-- What is left out because it is the default is read as the default. -/
theorem withDefault_unless {α : Type} [DecidableEq α] {read : Value → Option α}
    {write : α → Value} {x : α} (h : read (write x) = some x) (byDefault : α) :
    withDefault read byDefault (if x = byDefault then none else some (write x)) = some x := by
  split
  next heq => rw [withDefault, heq]
  next => exact h

theorem optionalText?_map_text (s? : Option String) : optionalText? (s?.map text) = some s? := by
  cases s? <;> rfl

end Value

theorem Parameters.ofValue?_toValue (p : Parameters) : ofValue? (toValue p) = some p := by
  have hread (bindings : List (String × String)) :
      (bindings.map fun b => (b.1, Value.text b.2)).mapM
        (fun f => f.2.text?.map fun s => (f.1, s)) = some bindings := by
    induction bindings with
    | nil => rfl
    | cons b rest ih =>
      rw [List.map_cons, List.mapM_cons, ih]
      rfl
  simp only [ofValue?, toValue, hread, Option.bind_eq_bind, Option.bind_some, Option.pure_def,
    Dictionary.ofList_entries]

namespace Descriptor

/-- The fields of the written form, with the values that are written. -/
def slots (d : Descriptor) : List (String × Option Value) := [
  ("selector", some (.text d.selector)),
  ("type", d.declaredType.map .text),
  ("resource", d.resource.map .text),
  ("parameters", if d.parameters = Dictionary.empty then none else some d.parameters.toValue),
  ("profile", if d.profile = "" then none else some (.text d.profile))]

theorem toValue_eq (d : Descriptor) : d.toValue = .ofSlots d.slots := by
  rw [toValue, Value.ofSlots, slots]
  simp only [Dictionary.isEmpty_iff]
  cases d.declaredType <;> cases d.resource <;> by_cases d.parameters = Dictionary.empty <;>
    by_cases d.profile = "" <;> simp [*]

/-- The written form is read as what was written: each field that is left out is one whose absence
is read as the value that it has. -/
theorem ofValue?_toValue (d : Descriptor) : ofValue? d.toValue = some d := by
  have hselector : (Value.ofSlots d.slots).field? 0 ["selector"] = some (some (.text d.selector)) :=
    Value.field?_ofSlots rfl
  have htype : (Value.ofSlots d.slots).field? 1 ["type", "resource_type"] =
      some (d.declaredType.map .text) := Value.field?_ofSlots rfl
  have hresource : (Value.ofSlots d.slots).field? 2 ["resource"] = some (d.resource.map .text) :=
    Value.field?_ofSlots rfl
  have hparameters : (Value.ofSlots d.slots).field? 3 ["parameters"] =
      some (if d.parameters = Dictionary.empty then none else some d.parameters.toValue) :=
    Value.field?_ofSlots rfl
  have hprofile : (Value.ofSlots d.slots).field? 4 ["profile"] =
      some (if d.profile = "" then none else some (.text d.profile)) := Value.field?_ofSlots rfl
  have hread : Value.withDefault Value.text? ""
      (if d.profile = "" then none else some (.text d.profile)) = some d.profile :=
    Value.withDefault_unless rfl ""
  rw [toValue_eq, ofValue?]
  simp only [hselector, htype, hresource, hparameters, hprofile, Option.bind_eq_bind,
    Option.bind_some, Option.pure_def, Value.optionalText?_map_text,
    Value.withDefault_unless d.parameters.ofValue?_toValue, hread]
  rfl

theorem toValue_injective : Function.Injective toValue := by
  intro d d' h
  have hread : ofValue? d'.toValue = some d := h ▸ d.ofValue?_toValue
  rw [ofValue?_toValue] at hread
  exact (Option.some.inj hread).symm

/-- The names under which the type is read. -/
def typeNames : List String := ["type", "resource_type"]

/-- Two written fields with the same value, and with the same name unless both give the type. -/
def SameField (f g : String × Value) : Prop :=
  f.2 = g.2 ∧ (f.1 = g.1 ∨ f.1 ∈ typeNames ∧ g.1 ∈ typeNames)

section Spelling

variable {fields fields' : List (String × Value)}

/-- Under names that have both names of the type or none, records that differ only in the name of
the type have the same values. -/
theorem under_of_same {names : List String} (h : List.Forall₂ SameField fields fields')
    (hnames : names.contains "type" = names.contains "resource_type") :
    Value.under names fields = Value.under names fields' := by
  induction h with
  | nil => rfl
  | @cons f g _ _ hsame _ ih =>
    obtain ⟨hvalue, hname⟩ := hsame
    have hcontains : names.contains f.1 = names.contains g.1 := by
      rcases hname with hname | ⟨hf, hg⟩
      · rw [hname]
      · have htype {n : String} (hn : n ∈ typeNames) :
            names.contains n = names.contains "type" := by
          simp only [typeNames, List.mem_cons, List.not_mem_nil, or_false] at hn
          rcases hn with rfl | rfl
          · rfl
          · exact hnames.symm
        rw [htype hf, htype hg]
    simp only [Value.under, List.filter_cons, hcontains] at ih ⊢
    split
    next => rw [List.map_cons, List.map_cons, hvalue, ih]
    next => exact ih

/-- It does not matter under which of its names the type is given. -/
theorem ofValue?_of_same (h : List.Forall₂ SameField fields fields') :
    ofValue? (.record fields) = ofValue? (.record fields') := by
  have hfield (position : Nat) (names : List String)
      (hnames : names.contains "type" = names.contains "resource_type") :
      (Value.record fields).field? position names =
        (Value.record fields').field? position names := by
    rw [Value.field?_record, Value.field?_record, under_of_same h hnames]
  simp only [ofValue?, hfield 0 ["selector"] rfl, hfield 1 ["type", "resource_type"] rfl,
    hfield 2 ["resource"] rfl, hfield 3 ["parameters"] rfl, hfield 4 ["profile"] rfl]

end Spelling

/-- A descriptor is written as the record of its fields, without an absent type or resource, empty
parameters and an empty profile, and this record is read as the descriptor again. Of what any value
is read as, the written form is read as the same; so is a record that gives the type under its other
name. Two descriptors with the same written form are equal. -/
theorem written_and_read_back :
    (∀ d : Descriptor, d.toValue = .ofSlots d.slots ∧ ofValue? d.toValue = some d) ∧
    (∀ v d, ofValue? v = some d → ofValue? d.toValue = some d ∧
      ∀ fields fields', v = .record fields → List.Forall₂ SameField fields fields' →
        ofValue? (.record fields') = some d) ∧
    Function.Injective toValue := by
  refine ⟨fun d => ⟨d.toValue_eq, d.ofValue?_toValue⟩,
    fun v d hread => ⟨d.ofValue?_toValue, ?_⟩, toValue_injective⟩
  rintro fields fields' rfl hsame
  rw [← ofValue?_of_same hsame, hread]

/-- A type that is there but empty is kept under either name, next to a resource that is null. -/
theorem emptyType_read_back :
    let d : Descriptor := { declaredType := some "" }
    ofValue? (.record [("resource", .null), ("type", .text "")]) = some d ∧
    ofValue? (.record [("resource", .null), ("resource_type", .text "")]) = some d ∧
    ofValue? d.toValue = some d := by
  intro d
  have hread : ofValue? (.record [("resource", .null), ("type", .text "")]) = some d := rfl
  obtain ⟨hback, hother⟩ := written_and_read_back.2.1 _ _ hread
  refine ⟨hread, hother _ [("resource", .null), ("resource_type", .text "")] rfl ?_, hback⟩
  exact .cons ⟨rfl, .inl rfl⟩ (.cons ⟨rfl, .inr ⟨by decide, by decide⟩⟩ .nil)

end Descriptor

end DeliveryPipeline
