import DeliveryPipeline.Proofs.Extraction.Comparison
import DeliveryPipeline.Proofs.Extraction.Origins

/-!
# Soft failures

A factory that fails on a descriptor or breaks down fails softly, and so does one that is missing,
unless a native reference needs it. A soft failure leaves no handler behind and an event about the
descriptor. What happens then depends on that no handler was made, and never on why. So extractions
go alike if one soft failure takes the place of another, and only events about the descriptor tell
them apart.
-/
namespace DeliveryPipeline

/-- A failure for which the descriptor is skipped. -/
def FactoryFailure.IsSoft : FactoryFailure → Prop
  | invalid _ => False
  | failed _ => True
  | panicked _ => True

/-- A factory of the type is asked for a handler of the descriptor. -/
def Descriptor.AsksFor (d : Descriptor) (t : String) : Prop :=
  (d.isNativeReference = true ∧ t = nativeType) ∨ d.resourceType? = some t

/-- Whether an event tells of none of the given descriptors. -/
def Event.isBesides (altered : Descriptor → Bool) (e : Event) : Bool :=
  !e.descriptor.any altered

/-- An attempt as it shows in some of its events. -/
def Attempt.showing (seen : Event → Bool) (a : Attempt) : Attempt :=
  { a with events := a.events.filter seen }

/-- An extraction as it shows in some of its events. -/
def Extraction.showing (seen : Event → Bool) (x : Extraction) : Extraction :=
  { x with events := x.events.filter seen }

theorem Extraction.log_showing (x : Extraction) (events : List Event) (seen : Event → Bool) :
    (x.log events).showing seen = (x.showing seen).log (events.filter seen) := by
  simp [log, showing]

theorem Attempt.showing_of_isAbout {seen : Event → Bool} {a : Attempt} {d : Descriptor}
    (h : a.IsAbout d) (hunseen : ∀ e, e.descriptor = some d → seen e = false) :
    a.showing seen = ⟨a.made, []⟩ := by
  have hnone : a.events.filter seen = [] := by
    rw [List.filter_eq_nil_iff]
    intro e he
    simp [hunseen e (h e he)]
  rw [showing, hnone]

theorem Factory.attempt_of_isSoft {f : Factory} {fresh : HandlerId} {d : Descriptor}
    {failure : FactoryFailure} (h : f.create fresh d = .error failure) (hsoft : failure.IsSoft) :
    ∃ a, f.attempt fresh d = .ok a ∧ a.made = none := by
  unfold Factory.attempt
  rw [h]
  cases failure with
  | invalid message => cases hsoft
  | failed message => exact ⟨_, rfl, rfl⟩
  | panicked payload => exact ⟨_, rfl, rfl⟩

namespace FactoryRegistry

/-- What the factory of a type answers for a descriptor, with its name. -/
def reply? (r : FactoryRegistry) (t : String) (fresh : HandlerId) (d : Descriptor) :
    Option (String × Except FactoryFailure Creation) :=
  (r.factoryFor? t).map fun f => (f.name, f.create fresh d)

/-- The factory of a type fails softly on a descriptor. -/
def FailsSoftly (r : FactoryRegistry) (t : String) (fresh : HandlerId) (d : Descriptor) : Prop :=
  match r.reply? t fresh d with
  | none => ¬(d.isNativeReference = true ∧ t = nativeType)
  | some (_, .ok _) => False
  | some (_, .error failure) => failure.IsSoft

/-- The registries answer alike for all types that a descriptor asks for, but on the altered
descriptors both may fail softly in different ways. -/
def DiffersSoftly (altered : Descriptor → Bool) (r r' : FactoryRegistry) : Prop :=
  ∀ d t fresh, d.AsksFor t → r.reply? t fresh d = r'.reply? t fresh d ∨
    (altered d = true ∧ r.FailsSoftly t fresh d ∧ r'.FailsSoftly t fresh d)

/-- The attempts to make a handler come to the same with both registries, as far as events are
seen. -/
def Alike (seen : Event → Bool) (r r' : FactoryRegistry) : Prop :=
  ∀ fresh d, (r.attempt fresh d).map (Attempt.showing seen) =
    (r'.attempt fresh d).map (Attempt.showing seen)

section Attempts

variable {r r' : FactoryRegistry} {t : String} {fresh : HandlerId} {d : Descriptor}
  {altered : Descriptor → Bool}

/-- Two registries with the same reply attempt the same. -/
theorem attemptAs_of_reply (h : r.reply? t fresh d = r'.reply? t fresh d) :
    r.attemptAs t fresh d = r'.attemptAs t fresh d := by
  unfold reply? at h
  unfold attemptAs
  cases hf : r.factoryFor? t with
  | none =>
    rw [hf, Option.map_none, eq_comm, Option.map_eq_none_iff] at h
    rw [h]
  | some f =>
    rw [hf, Option.map_some, eq_comm, Option.map_eq_some_iff] at h
    obtain ⟨f', hf', hreply⟩ := h
    obtain ⟨hname, hcreate⟩ := Prod.mk.inj hreply
    simp only [hf', Factory.attempt, hname, hcreate]

/-- A soft failure makes no handler. All it leaves behind is events about the descriptor. -/
theorem FailsSoftly.attemptAs_eq (h : r.FailsSoftly t fresh d) :
    ∃ a, r.attemptAs t fresh d = .ok a ∧ a.made = none ∧ a.IsAbout d := by
  unfold FailsSoftly reply? at h
  unfold attemptAs
  cases hf : r.factoryFor? t with
  | none => exact ⟨_, rfl, rfl, by simp [Attempt.IsAbout, Event.about]⟩
  | some f =>
    rw [hf, Option.map_some] at h
    dsimp only at h ⊢
    cases hcreate : f.create fresh d with
    | ok made =>
      rw [hcreate] at h
      cases h
    | error failure =>
      rw [hcreate] at h
      obtain ⟨a, ha, hmade⟩ := Factory.attempt_of_isSoft hcreate h
      exact ⟨a, ha, hmade, Factory.isAbout_of_attempt ha⟩

theorem DiffersSoftly.attemptAs_alike (h : DiffersSoftly altered r r') (hasks : d.AsksFor t) :
    (r.attemptAs t fresh d).map (Attempt.showing (Event.isBesides altered)) =
      (r'.attemptAs t fresh d).map (Attempt.showing (Event.isBesides altered)) := by
  rcases h d t fresh hasks with hreply | ⟨haltered, hsoft, hsoft'⟩
  · rw [attemptAs_of_reply hreply]
  · have hunseen : ∀ e : Event, e.descriptor = some d → e.isBesides altered = false := by
      intro e he
      simp [Event.isBesides, he, haltered]
    obtain ⟨a, ha, hmade, habout⟩ := hsoft.attemptAs_eq
    obtain ⟨a', ha', hmade', habout'⟩ := hsoft'.attemptAs_eq
    rw [ha, ha']
    simp only [Except.map, Attempt.showing_of_isAbout habout hunseen,
      Attempt.showing_of_isAbout habout' hunseen, hmade, hmade']

/-- A native reference finds no native factory with one registry exactly if it finds none with the
other. -/
theorem DiffersSoftly.missing_iff (h : DiffersSoftly altered r r')
    (hnative : d.isNativeReference = true) :
    r.factoryFor? nativeType = none ↔ r'.factoryFor? nativeType = none := by
  have hasks : d.AsksFor nativeType := .inl ⟨hnative, rfl⟩
  rcases h d nativeType (.created 0) hasks with hreply | ⟨-, hsoft, hsoft'⟩
  · unfold reply? at hreply
    rw [← Option.map_eq_none_iff, hreply, Option.map_eq_none_iff]
  · have hfound {r : FactoryRegistry} (hsoft : r.FailsSoftly nativeType (.created 0) d) :
        r.factoryFor? nativeType ≠ none := by
      intro hnone
      simp [FailsSoftly, reply?, hnone, hnative] at hsoft
    exact iff_of_false (hfound hsoft) (hfound hsoft')

theorem DiffersSoftly.attemptByType_alike (h : DiffersSoftly altered r r') :
    (r.attemptByType fresh d).map (Attempt.showing (Event.isBesides altered)) =
      (r'.attemptByType fresh d).map (Attempt.showing (Event.isBesides altered)) := by
  rw [attemptByType, attemptByType]
  cases htype : d.resourceType? with
  | none => rfl
  | some t =>
    dsimp only
    split
    next => rfl
    next => exact h.attemptAs_alike (.inr htype)

theorem attempt_of_not_native (r : FactoryRegistry) (fresh : HandlerId)
    (hnative : d.isNativeReference = false) : r.attempt fresh d = r.attemptByType fresh d := by
  simp [attempt, hnative]

/-- A native reference is first tried with the native factory, which has to be there. -/
theorem attempt_of_native (r : FactoryRegistry) (fresh : HandlerId)
    (hnative : d.isNativeReference = true) :
    r.attempt fresh d =
      if r.factoryFor? nativeType = none then .error (.configuration (.nativeFactoryMissing d))
      else r.attemptAs nativeType fresh d >>= fun first =>
        if first.made.isSome then .ok first
        else r.attemptByType fresh d >>= fun second =>
          .ok ⟨second.made, first.events ++ second.events⟩ := by
  unfold attempt attemptAs
  rw [if_pos hnative]
  cases r.factoryFor? nativeType with
  | none => rfl
  | some f => rfl

theorem DiffersSoftly.alike (h : DiffersSoftly altered r r') :
    Alike (Event.isBesides altered) r r' := by
  intro fresh d
  cases hnative : d.isNativeReference with
  | false =>
    rw [attempt_of_not_native r fresh hnative, attempt_of_not_native r' fresh hnative]
    exact h.attemptByType_alike
  | true =>
    rw [attempt_of_native r fresh hnative, attempt_of_native r' fresh hnative]
    simp only [h.missing_iff hnative]
    split
    next => rfl
    next =>
      refine Error.map_bind_eq_map_bind (h.attemptAs_alike (.inl ⟨hnative, rfl⟩)) ?_
      intro first first' hfirst
      obtain ⟨hmade, hevents⟩ := Attempt.mk.inj hfirst
      rw [hmade]
      split
      next => exact congrArg Except.ok hfirst
      next =>
        refine Error.map_bind_eq_map_bind h.attemptByType_alike ?_
        intro second second' hsecond
        obtain ⟨hmade', hevents'⟩ := Attempt.mk.inj hsecond
        simp only [Except.map, Attempt.showing, List.filter_append, hmade', hevents, hevents']

theorem factoryFor?_register (r : FactoryRegistry) (t t' : String) (f : Factory) :
    (r.register t f).factoryFor? t' =
      if typeKey t' = typeKey t then some f else r.factoryFor? t' := by
  rw [factoryFor?, register, Dictionary.get?_set]
  rfl

/-- A factory that never makes a handler may as well be missing, unless it is the native one. -/
theorem differsSoftly_register {f : Factory} (hmissing : r.factoryFor? t = none)
    (htype : typeKey t ≠ typeKey nativeType)
    (hfails : ∀ fresh d, ∃ failure, f.create fresh d = .error failure ∧ failure.IsSoft) :
    DiffersSoftly (fun d => d.resourceType?.any fun t' => typeKey t' = typeKey t)
      (r.register t f) r := by
  intro d t' fresh hasks
  have hregistered := factoryFor?_register r t t' f
  by_cases hkey : typeKey t' = typeKey t
  · have hnative : t' ≠ nativeType := by
      rintro rfl
      exact htype hkey.symm
    have hdeclared : d.resourceType? = some t' := hasks.resolve_left fun h => hnative h.2
    obtain ⟨failure, hcreate, hsoft⟩ := hfails fresh d
    have hmissing' : r.factoryFor? t' = none := by
      rw [← hmissing, factoryFor?, factoryFor?, hkey]
    refine .inr ⟨by simp [hdeclared, hkey], ?_, ?_⟩
    · simpa [FailsSoftly, reply?, hregistered, hkey, hcreate] using hsoft
    · simp [FailsSoftly, reply?, hmissing', hnative]
  · refine .inl ?_
    rw [reply?, reply?, hregistered, if_neg hkey]

end Attempts

end FactoryRegistry

namespace Workshop

/-- The rest of a visit asks for no event. -/
theorem settle_showing (w : Workshop) (expansions : Nat) (item : WorkItem) (made : Option Creation)
    (seen : Event → Bool) (x : Extraction) :
    (w.settle expansions item made x).map (fun v => (v.1.showing seen, v.2)) =
      w.settle expansions item made (x.showing seen) := by
  unfold settle
  cases made with
  | none =>
    dsimp only
    split <;> rfl
  | some made =>
    dsimp only
    cases w.expand expansions item.descriptor made with
    | error e => rfl
    | ok items =>
      simp only [Except.map, Extraction.letRegister]
      split <;> rfl

variable {seen : Event → Bool} {w : Workshop} {r : FactoryRegistry}

/-- With registries that are alike, extraction goes alike from states that look alike. -/
theorem proceed_alike (h : FactoryRegistry.Alike seen w.factories r) (expansions : Nat)
    (pending : List WorkItem) {x x' : Extraction} (hx : x.showing seen = x'.showing seen) :
    (w.proceed expansions pending x).map (Extraction.showing seen) =
      (Workshop.proceed { w with factories := r } expansions pending x').map
        (Extraction.showing seen) := by
  refine map_proceed_eq ?_ expansions pending hx
  intro n item x x' hx
  have hcreated : x.created = x'.created := (Extraction.mk.inj hx).2.1
  rw [visit, visit, hcreated]
  refine Error.map_bind_eq_map_bind (h (.created x'.created.length) item.descriptor) ?_
  intro a a' ha
  obtain ⟨hmade, hevents⟩ := Attempt.mk.inj ha
  rw [settle_showing, settle_showing, Extraction.log_showing, Extraction.log_showing, hx, hmade,
    hevents]
  rfl

end Workshop

end DeliveryPipeline
