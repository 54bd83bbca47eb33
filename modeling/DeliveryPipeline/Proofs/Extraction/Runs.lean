import DeliveryPipeline.Proofs.Extraction.SoftFailures
import DeliveryPipeline.Proofs.Selector.Separators

/-!
# The factories that are run

A descriptor has types to try in turn: a native reference the native type and then the one that it
declares, and any other descriptor its only type. The factory of a type is run when those before it
have failed softly, so the runs are told from the answers of the factories alone. They tell in turn
what an attempt to make a handler comes to: its error, its handler and the causes in its events. No
type is tried twice, and factories that are not run are of no account.
-/
namespace DeliveryPipeline

/-- The cause that a soft failure gives. -/
def FactoryFailure.cause? : FactoryFailure → Option String
  | invalid _ => none
  | failed cause => some cause
  | panicked payload => some (panicMessage payload)

theorem FactoryFailure.isSome_cause?_iff {failure : FactoryFailure} :
    failure.cause?.isSome = true ↔ failure.IsSoft := by
  cases failure <;> simp [cause?, IsSoft]

@[simp] theorem FactoryRegistry.typeKey_nativeType : typeKey nativeType = nativeType := by
  decide +kernel

namespace Descriptor

/-- The type that a descriptor declares, unless it is blank. -/
def statedType? (d : Descriptor) : Option String :=
  (d.declaredType.map Text.trim).filter (· ≠ "")

/-- The types to try in turn for a handler of a descriptor. -/
def typesToTry (d : Descriptor) : List String :=
  if d.isNativeReference then
    nativeType :: d.statedType?.toList.filter fun t => FactoryRegistry.typeKey t ≠ nativeType
  else d.resourceType?.toList

variable {d : Descriptor} {t : String}

theorem trim_of_statedType? (h : d.statedType? = some t) : Text.trim t = t := by
  unfold statedType? at h
  rw [Option.filter_eq_some_iff, Option.map_eq_some_iff] at h
  obtain ⟨⟨declared, -, rfl⟩, -⟩ := h
  exact Text.trim_trim declared

theorem statedType?_eq_none_iff :
    d.statedType? = none ↔ d.declaredType.all Text.isBlankText = true := by
  cases hdeclared : d.declaredType with
  | none => simp [statedType?, hdeclared]
  | some declared =>
    simp [statedType?, hdeclared, Text.trim_eq_empty_iff, Text.isBlankText]

theorem resourceType?_eq (d : Descriptor) :
    d.resourceType? = d.statedType?.or (d.resource.bind derivedType?) := by
  unfold resourceType? statedType?
  cases (d.declaredType.map Text.trim).filter (· ≠ "") <;> rfl

/-- A native path is no file name, so a native reference shows no type but the one declared. -/
theorem resourceType?_of_native (h : d.isNativeReference = true) :
    d.resourceType? = d.statedType? := by
  rw [resourceType?_eq]
  cases hresource : d.resource with
  | none => simp
  | some path =>
    simp only [isNativeReference, hresource, Option.any_some, isNativePath, Bool.and_eq_true,
      decide_eq_true_eq] at h
    have hderived : derivedType? path = none := by
      unfold derivedType?
      exact if_pos (by simp only [h.1, decide_true, Bool.or_true])
    rw [Option.bind_some, hderived, Option.or_none]

theorem typesToTry_of_native (h : d.isNativeReference = true) : d.typesToTry =
    nativeType :: d.statedType?.toList.filter fun t => FactoryRegistry.typeKey t ≠ nativeType :=
  if_pos h

theorem typesToTry_of_not_native (h : d.isNativeReference = false) :
    d.typesToTry = d.resourceType?.toList := by
  simp [typesToTry, h]

theorem typesToTry_eq_nil_iff :
    d.typesToTry = [] ↔ d.isNativeReference = false ∧ d.resourceType? = none := by
  cases hnative : d.isNativeReference with
  | false => simp [typesToTry_of_not_native hnative]
  | true => simp [typesToTry_of_native hnative]

/-- The types to try have factories of their own, in whatever case and padding they are written. -/
theorem nodup_typesToTry (d : Descriptor) :
    (d.typesToTry.map FactoryRegistry.typeKey).Nodup := by
  cases hnative : d.isNativeReference with
  | false =>
    rw [typesToTry_of_not_native hnative]
    cases d.resourceType? <;> simp
  | true =>
    rw [typesToTry_of_native hnative, List.map_cons, List.nodup_cons,
      FactoryRegistry.typeKey_nativeType]
    constructor
    · simp
    · cases d.statedType? with
      | none => simp
      | some t => exact (List.filter_sublist.map _).nodup (by simp)

end Descriptor

namespace Factory

/-- The cause for which a factory fails softly on a descriptor, if it does. -/
def failure? (f : Factory) (fresh : HandlerId) (d : Descriptor) : Option String :=
  match f.create fresh d with
  | .ok _ => none
  | .error failure => failure.cause?

/-- A factory makes a handler, refuses the descriptor, or fails softly and leaves an event with the
cause behind. -/
theorem attempt_cases (f : Factory) (fresh : HandlerId) (d : Descriptor) :
    (∃ made, f.create fresh d = .ok made ∧ f.failure? fresh d = none ∧
      f.attempt fresh d = .ok ⟨some made, []⟩) ∨
    (∃ message, f.create fresh d = .error (.invalid message) ∧ f.failure? fresh d = none ∧
      f.attempt fresh d = .error (.factory d.label message)) ∨
    ∃ failure cause e, f.create fresh d = .error failure ∧ f.failure? fresh d = some cause ∧
      e.cause = some cause ∧ f.attempt fresh d = .ok ⟨none, [e]⟩ := by
  cases hcreate : f.create fresh d with
  | ok made => exact .inl ⟨made, rfl, by simp [failure?, hcreate], by simp [attempt, hcreate]⟩
  | error failure =>
    refine .inr ?_
    cases failure with
    | invalid message =>
      exact .inl ⟨message, rfl, by simp [failure?, hcreate, FactoryFailure.cause?],
        by simp [attempt, hcreate]⟩
    | failed cause =>
      exact .inr ⟨_, cause, _, rfl, by simp [failure?, hcreate, FactoryFailure.cause?], rfl,
        by simp [attempt, hcreate]; rfl⟩
    | panicked payload =>
      exact .inr ⟨_, _, _, rfl, by simp [failure?, hcreate, FactoryFailure.cause?]; rfl, rfl,
        by simp [attempt, hcreate]; rfl⟩

end Factory

namespace FactoryRegistry

/-- The types whose factories are run for a descriptor, out of types to try in turn. The next type
is tried when a factory fails softly, but not when it is missing. -/
def runsOf (r : FactoryRegistry) (fresh : HandlerId) (d : Descriptor) : List String → List String
  | [] => []
  | t :: types =>
    match r.factoryFor? t with
    | none => []
    | some f => t :: if (f.failure? fresh d).isSome then r.runsOf fresh d types else []

/-- The types whose factories are run for a descriptor. -/
def runs (r : FactoryRegistry) (fresh : HandlerId) (d : Descriptor) : List String :=
  r.runsOf fresh d d.typesToTry

/-- The cause for which the factory of a type fails softly on a descriptor, if it does. -/
def failure? (r : FactoryRegistry) (fresh : HandlerId) (d : Descriptor) (t : String) :
    Option String :=
  (r.factoryFor? t).bind fun f => f.failure? fresh d

/-- Let the factories of types make a handler, each if those before it have failed softly. -/
def attemptInTurn (r : FactoryRegistry) (fresh : HandlerId) (d : Descriptor) :
    List String → Except Error Attempt
  | [] => .ok ⟨none, []⟩
  | t :: types => r.attemptAs t fresh d >>= fun first =>
    if first.made.isSome ∨ r.factoryFor? t = none then .ok first
    else r.attemptInTurn fresh d types >>= fun rest =>
      .ok ⟨rest.made, first.events ++ rest.events⟩

section Turns

variable {r r' : FactoryRegistry} {fresh : HandlerId} {d : Descriptor} {types : List String}

/-- What comes of the first type to try: its factory is missing, makes a handler, refuses the
descriptor, or fails softly and leaves the rest to the later types. -/
theorem turn_cases (r : FactoryRegistry) (fresh : HandlerId) (d : Descriptor) (t : String)
    (types : List String) :
    (∃ e, r.factoryFor? t = none ∧ e.cause = none ∧ r.runsOf fresh d (t :: types) = [] ∧
      r.attemptInTurn fresh d (t :: types) = .ok ⟨none, [e]⟩) ∨
    (∃ f made, r.factoryFor? t = some f ∧ f.create fresh d = .ok made ∧
      r.failure? fresh d t = none ∧ r.runsOf fresh d (t :: types) = [t] ∧
      r.attemptInTurn fresh d (t :: types) = .ok ⟨some made, []⟩) ∨
    (∃ f message, r.factoryFor? t = some f ∧ f.create fresh d = .error (.invalid message) ∧
      r.failure? fresh d t = none ∧ r.runsOf fresh d (t :: types) = [t] ∧
      r.attemptInTurn fresh d (t :: types) = .error (.factory d.label message)) ∨
    ∃ f failure cause e, r.factoryFor? t = some f ∧ f.create fresh d = .error failure ∧
      r.failure? fresh d t = some cause ∧ e.cause = some cause ∧
      r.runsOf fresh d (t :: types) = t :: r.runsOf fresh d types ∧
      r.attemptInTurn fresh d (t :: types) =
        r.attemptInTurn fresh d types >>= fun rest => .ok ⟨rest.made, e :: rest.events⟩ := by
  cases hf : r.factoryFor? t with
  | none =>
    exact .inl ⟨_, rfl, rfl, by simp [runsOf, hf], by simp [attemptInTurn, attemptAs, hf]; rfl⟩
  | some f =>
    refine .inr ?_
    have has : r.attemptAs t fresh d = f.attempt fresh d := by simp [attemptAs, hf]
    have hfailure : r.failure? fresh d t = f.failure? fresh d := by simp [failure?, hf]
    rcases f.attempt_cases fresh d with ⟨made, hcreate, hnone, hattempt⟩ |
      ⟨message, hcreate, hnone, hattempt⟩ | ⟨failure, cause, e, hcreate, hsome, hcause, hattempt⟩
    · refine .inl ⟨f, made, rfl, hcreate, hfailure.trans hnone, by simp [runsOf, hf, hnone], ?_⟩
      rw [attemptInTurn, has, hattempt]
      rfl
    · refine .inr (.inl ⟨f, message, rfl, hcreate, hfailure.trans hnone,
        by simp [runsOf, hf, hnone], ?_⟩)
      rw [attemptInTurn, has, hattempt]
      rfl
    · refine .inr (.inr ⟨f, failure, cause, e, rfl, hcreate, hfailure.trans hsome, hcause,
        by simp [runsOf, hf, hsome], ?_⟩)
      rw [attemptInTurn, has, hattempt]
      simp [hf, bind, Except.bind]

theorem runsOf_sublist : (r.runsOf fresh d types).Sublist types := by
  induction types with
  | nil => exact List.Sublist.refl []
  | cons t types ih =>
    rcases r.turn_cases fresh d t types with ⟨_, -, -, hruns, -⟩ | ⟨_, _, -, -, -, hruns, -⟩ |
      ⟨_, _, -, -, -, hruns, -⟩ | ⟨_, _, _, _, -, -, -, -, hruns, -⟩
    · simp [hruns]
    · simp [hruns]
    · simp [hruns]
    · simpa [hruns] using ih

theorem runsOf_toList (r : FactoryRegistry) (fresh : HandlerId) (d : Descriptor)
    (t? : Option String) :
    r.runsOf fresh d t?.toList = t?.toList.filter fun t => (r.factoryFor? t).isSome := by
  cases t? with
  | none => rfl
  | some t => cases hf : r.factoryFor? t <;> simp [runsOf, hf]

/-- An attempt ends in an error exactly if a factory that is run refuses the descriptor. -/
theorem attemptInTurn_eq_error_iff {e : Error} : r.attemptInTurn fresh d types = .error e ↔
    ∃ t ∈ r.runsOf fresh d types, ∃ f ∈ r.factoryFor? t, ∃ message,
      f.create fresh d = .error (.invalid message) ∧ e = .factory d.label message := by
  induction types with
  | nil => simp [attemptInTurn, runsOf]
  | cons t types ih =>
    rcases r.turn_cases fresh d t types with ⟨_, -, -, hruns, hattempt⟩ |
      ⟨f, made, hf, hcreate, -, hruns, hattempt⟩ | ⟨f, message, hf, hcreate, -, hruns, hattempt⟩ |
      ⟨f, failure, cause, _, hf, hcreate, hfailure, -, hruns, hattempt⟩
    · simp [hruns, hattempt]
    · simp [hruns, hattempt, hf, hcreate]
    · simp [hruns, hattempt, hf, hcreate, eq_comm]
    · have hvalid (message : String) : failure ≠ .invalid message := by
        rintro rfl
        simp [failure?, hf, Factory.failure?, hcreate, FactoryFailure.cause?] at hfailure
      rw [hruns, hattempt, List.exists_mem_cons_iff, ← ih]
      cases r.attemptInTurn fresh d types <;> simp [bind, Except.bind, hf, hcreate, hvalid]

/-- The handler of an attempt is that of a factory that is run, if one of them makes a handler. -/
theorem made_of_attemptInTurn_iff {made : Creation} :
    (∃ a, r.attemptInTurn fresh d types = .ok a ∧ a.made = some made) ↔
      ∃ t ∈ r.runsOf fresh d types, ∃ f ∈ r.factoryFor? t, f.create fresh d = .ok made := by
  induction types with
  | nil => simp [attemptInTurn, runsOf]
  | cons t types ih =>
    rcases r.turn_cases fresh d t types with ⟨_, -, -, hruns, hattempt⟩ |
      ⟨f, _, hf, hcreate, -, hruns, hattempt⟩ | ⟨f, _, hf, hcreate, -, hruns, hattempt⟩ |
      ⟨f, _, _, _, hf, hcreate, -, -, hruns, hattempt⟩
    · simp [hruns, hattempt]
    · simp [hruns, hattempt, hf, hcreate]
    · simp [hruns, hattempt, hf, hcreate]
    · rw [hruns, hattempt, List.exists_mem_cons_iff, ← ih]
      cases r.attemptInTurn fresh d types <;> simp [bind, Except.bind, hf, hcreate]

/-- The causes in the events of an attempt are those for which factories have failed. -/
theorem causes_of_attemptInTurn {a : Attempt} (h : r.attemptInTurn fresh d types = .ok a) :
    a.events.filterMap Event.cause =
      (r.runsOf fresh d types).filterMap (r.failure? fresh d) := by
  induction types generalizing a with
  | nil => cases h; rfl
  | cons t types ih =>
    rcases r.turn_cases fresh d t types with ⟨e, -, hcause, hruns, hattempt⟩ |
      ⟨_, _, -, -, hfailure, hruns, hattempt⟩ | ⟨_, _, -, -, -, -, hattempt⟩ |
      ⟨_, _, cause, e, -, -, hfailure, hcause, hruns, hattempt⟩
    · rw [hattempt] at h
      cases h
      simp [hruns, hcause]
    · rw [hattempt] at h
      cases h
      simp [hruns, hfailure]
    · rw [hattempt] at h
      cases h
    · rw [hattempt] at h
      obtain ⟨rest, hrest, h⟩ := Error.bind_eq_ok_iff.1 h
      cases h
      simp [hruns, hcause, hfailure, ih hrest]

/-- An attempt that makes no handler leaves an event behind, if there was a type to try. -/
theorem events_of_attemptInTurn {a : Attempt} (h : r.attemptInTurn fresh d types = .ok a)
    (hmade : a.made = none) : a.events = [] ↔ types = [] := by
  cases types with
  | nil => cases h; simp
  | cons t types =>
    rcases r.turn_cases fresh d t types with ⟨_, -, -, -, hattempt⟩ |
      ⟨_, _, -, -, -, -, hattempt⟩ | ⟨_, _, -, -, -, -, hattempt⟩ |
      ⟨_, _, _, _, -, -, -, -, -, hattempt⟩ <;> rw [hattempt] at h
    · cases h
      simp
    · cases h
      cases hmade
    · cases h
    · obtain ⟨rest, -, h⟩ := Error.bind_eq_ok_iff.1 h
      cases h
      simp

/-- An attempt is the same with other factories in place of those that are not run. -/
theorem attemptInTurn_congr
    (hmissing : ∀ t, r.factoryFor? t = none → r'.factoryFor? t = none)
    (hsame : ∀ t ∈ r.runsOf fresh d types, r'.factoryFor? t = r.factoryFor? t) :
    r'.attemptInTurn fresh d types = r.attemptInTurn fresh d types := by
  induction types with
  | nil => rfl
  | cons t types ih =>
    cases hf : r.factoryFor? t with
    | none => simp [attemptInTurn, attemptAs, hf, hmissing t hf]
    | some f =>
      have hf' : r'.factoryFor? t = some f := by
        rw [hsame t (by simp [runsOf, hf]), hf]
      have has : r'.attemptAs t fresh d = r.attemptAs t fresh d := by
        simp [attemptAs, hf, hf']
      rw [attemptInTurn, attemptInTurn, has, hf, hf']
      cases hfailure : f.failure? fresh d with
      | some cause =>
        rw [ih]
        intro t' ht'
        exact hsame t' (by simp [runsOf, hf, hfailure, ht'])
      | none =>
        -- no later type is tried, so it does not matter what comes of them
        have has' : r.attemptAs t fresh d = f.attempt fresh d := by simp [attemptAs, hf]
        rcases f.attempt_cases fresh d with ⟨_, -, -, hattempt⟩ | ⟨_, -, -, hattempt⟩ |
          ⟨_, _, _, -, hsome, -, -⟩
        · rw [has', hattempt]
          rfl
        · rw [has', hattempt]
          rfl
        · rw [hfailure] at hsome
          cases hsome

end Turns

section Attempts

variable {r r' : FactoryRegistry} {fresh : HandlerId} {d : Descriptor} {t : String}

theorem attemptInTurn_singleton (r : FactoryRegistry) (fresh : HandlerId) (d : Descriptor)
    (t : String) : r.attemptInTurn fresh d [t] = r.attemptAs t fresh d := by
  rw [attemptInTurn]
  cases r.attemptAs t fresh d with
  | error e => rfl
  | ok first =>
    rcases first with ⟨_ | made, events⟩ <;> simp [attemptInTurn, bind, Except.bind]

/-- A type that is declared is the native one if its factory is kept as the native one. -/
theorem sameIgnoringCase_nativeType_iff (h : d.statedType? = some t) :
    Text.sameIgnoringCase t nativeType = true ↔ typeKey t = nativeType := by
  have hlower : nativeType.toLower = nativeType := by decide +kernel
  rw [Text.sameIgnoringCase, hlower, typeKey, Descriptor.trim_of_statedType? h, beq_iff_eq]

theorem attemptByType_of_native (h : d.isNativeReference = true) :
    r.attemptByType fresh d = r.attemptInTurn fresh d
      (d.statedType?.toList.filter fun t => typeKey t ≠ nativeType) := by
  rw [attemptByType, Descriptor.resourceType?_of_native h]
  cases hstated : d.statedType? with
  | none => simp [h, attemptInTurn]
  | some t =>
    have hkey := sameIgnoringCase_nativeType_iff hstated
    by_cases hnative : typeKey t = nativeType
    · simp [h, hkey.2 hnative, hnative, attemptInTurn]
    · have hother : Text.sameIgnoringCase t nativeType = false := by
        rw [← Bool.not_eq_true, hkey]
        exact hnative
      simp [hother, hnative, attemptInTurn_singleton]

/-- The types to try are tried in turn. A native reference needs a native factory, and a resource
without a type is told of. -/
theorem attempt_eq (r : FactoryRegistry) (fresh : HandlerId) (d : Descriptor) :
    r.attempt fresh d =
      if d.isNativeReference = true ∧ r.factoryFor? nativeType = none then
        .error (.configuration (.nativeFactoryMissing d))
      else if d.typesToTry = [] ∧ d.resource.isSome = true then
        .ok ⟨none, [Event.about d "resource type could not be determined"]⟩
      else r.attemptInTurn fresh d d.typesToTry := by
  cases hnative : d.isNativeReference with
  | false =>
    rw [attempt_of_not_native r fresh hnative, attemptByType,
      Descriptor.typesToTry_of_not_native hnative]
    cases d.resourceType? with
    | none => simp [hnative, attemptInTurn]
    | some t => simp [hnative, attemptInTurn_singleton]
  | true =>
    rw [attempt_of_native r fresh hnative, attemptByType_of_native hnative,
      Descriptor.typesToTry_of_native hnative, attemptInTurn]
    by_cases hmissing : r.factoryFor? nativeType = none <;> simp [hmissing]

/-- Without the native factory that it needs, none is run for a native reference. -/
theorem runs_of_native_missing (hnative : d.isNativeReference = true)
    (hmissing : r.factoryFor? nativeType = none) : r.runs fresh d = [] := by
  simp [runs, Descriptor.typesToTry_of_native hnative, runsOf, hmissing]

theorem runs_of_native {f : Factory} (hnative : d.isNativeReference = true)
    (hf : r.factoryFor? nativeType = some f) :
    r.runs fresh d = nativeType :: if (f.failure? fresh d).isSome then
      d.statedType?.toList.filter fun t => typeKey t ≠ nativeType && (r.factoryFor? t).isSome
    else [] := by
  have hsecond : r.runsOf fresh d (d.statedType?.toList.filter fun t => typeKey t ≠ nativeType) =
      d.statedType?.toList.filter fun t => typeKey t ≠ nativeType && (r.factoryFor? t).isSome := by
    rw [← Option.toList_filter, runsOf_toList, Option.toList_filter, List.filter_filter]
    simp only [Bool.and_comm]
  rw [runs, Descriptor.typesToTry_of_native hnative, runsOf, hf, hsecond]

theorem nodup_runs (r : FactoryRegistry) (fresh : HandlerId) (d : Descriptor) :
    ((r.runs fresh d).map typeKey).Nodup :=
  (runsOf_sublist.map typeKey).nodup d.nodup_typesToTry

theorem runs_of_typesToTry_eq_nil (h : d.typesToTry = []) : r.runs fresh d = [] := by
  rw [runs, h, runsOf]

/-- An attempt fails if a native factory is missing that is needed, or a factory that is run refuses
the descriptor. -/
theorem attempt_eq_error_iff {e : Error} : r.attempt fresh d = .error e ↔
    (d.isNativeReference = true ∧ r.factoryFor? nativeType = none ∧
      e = .configuration (.nativeFactoryMissing d)) ∨
    ∃ t ∈ r.runs fresh d, ∃ f ∈ r.factoryFor? t, ∃ message,
      f.create fresh d = .error (.invalid message) ∧ e = .factory d.label message := by
  rw [attempt_eq]
  split
  next h => simp [h, runs_of_native_missing h.1 h.2, eq_comm]
  next hpresent =>
    split
    next h => simp [hpresent, runs_of_typesToTry_eq_nil h.1, ← and_assoc]
    next => simp [attemptInTurn_eq_error_iff, runs, hpresent, ← and_assoc]

/-- An attempt that does not fail tells of a resource without a type, or has tried all types in
turn. -/
theorem attempt_ok_cases {a : Attempt} (h : r.attempt fresh d = .ok a) :
    (d.typesToTry = [] ∧ d.resource.isSome = true ∧ ∃ e, e.cause = none ∧ a = ⟨none, [e]⟩) ∨
    (d.typesToTry = [] → d.resource = none) ∧ r.attemptInTurn fresh d d.typesToTry = .ok a := by
  rw [attempt_eq] at h
  split at h
  next => cases h
  next =>
    split at h
    next hnone =>
      cases h
      exact .inl ⟨hnone.1, hnone.2, _, rfl, rfl⟩
    next hsome => exact .inr ⟨by simpa using hsome, h⟩

theorem causes_of_attempt {a : Attempt} (h : r.attempt fresh d = .ok a) :
    a.events.filterMap Event.cause = (r.runs fresh d).filterMap (r.failure? fresh d) := by
  rcases attempt_ok_cases h with ⟨hnone, -, e, hcause, rfl⟩ | ⟨-, hturns⟩
  · simp [runs_of_typesToTry_eq_nil hnone, hcause]
  · exact causes_of_attemptInTurn hturns

/-- No descriptor is skipped in silence that has a resource or a type. -/
theorem events_eq_nil_iff {a : Attempt} (h : r.attempt fresh d = .ok a) (hmade : a.made = none) :
    a.events = [] ↔ d.resource = none ∧ d.declaredType.all Text.isBlankText = true := by
  have htypes (hresource : d.resource = none) :
      d.typesToTry = [] ↔ d.declaredType.all Text.isBlankText = true := by
    rw [Descriptor.typesToTry_eq_nil_iff, Descriptor.resourceType?_eq, hresource,
      ← Descriptor.statedType?_eq_none_iff]
    simp [Descriptor.isNativeReference, hresource]
  rcases attempt_ok_cases h with ⟨-, hresource, e, -, rfl⟩ | ⟨hresource, hturns⟩
  · refine iff_of_false (by simp) ?_
    rintro ⟨hnone, -⟩
    simp [hnone] at hresource
  · rw [events_of_attemptInTurn hturns hmade]
    constructor
    · intro hnone
      exact ⟨hresource hnone, (htypes (hresource hnone)).1 hnone⟩
    · rintro ⟨hresource, hblank⟩
      exact (htypes hresource).2 hblank

/-- Another factory of a type makes no difference if the type's factory is not run. -/
theorem attempt_register (f : Factory) (hf : (r.factoryFor? t).isSome = true)
    (hruns : typeKey t ∉ (r.runs fresh d).map typeKey) :
    (r.register t f).attempt fresh d = r.attempt fresh d := by
  have hmissing (t' : String) :
      (r.register t f).factoryFor? t' = none ↔ r.factoryFor? t' = none := by
    rw [factoryFor?_register]
    split
    next hkey =>
      have hsome : (r.factoryFor? t').isSome = true := by rwa [factoryFor?, hkey]
      simp [← Option.not_isSome_iff_eq_none, hsome]
    next => rfl
  have hturns : (r.register t f).attemptInTurn fresh d d.typesToTry =
      r.attemptInTurn fresh d d.typesToTry := by
    refine attemptInTurn_congr (fun t' => (hmissing t').2) fun t' ht' => ?_
    rw [factoryFor?_register, if_neg]
    intro hkey
    exact hruns (hkey ▸ List.mem_map_of_mem ht')
  simp only [attempt_eq, hmissing, hturns]

theorem made_of_attempt_iff {made : Creation} :
    (∃ a, r.attempt fresh d = .ok a ∧ a.made = some made) ↔
      ∃ t ∈ r.runs fresh d, ∃ f ∈ r.factoryFor? t, f.create fresh d = .ok made := by
  rw [attempt_eq]
  split
  next h => simp [runs_of_native_missing h.1 h.2]
  next =>
    split
    next h => simp [runs_of_typesToTry_eq_nil h.1]
    next => exact made_of_attemptInTurn_iff

theorem attempt_of_native_made {f : Factory} {made : Creation}
    (hnative : d.isNativeReference = true) (hf : r.factoryFor? nativeType = some f)
    (hcreate : f.create fresh d = .ok made) : r.attempt fresh d = .ok ⟨some made, []⟩ := by
  have has : r.attemptAs nativeType fresh d = .ok ⟨some made, []⟩ := by
    simp [attemptAs, hf, Factory.attempt, hcreate]
  rw [attempt_of_native r fresh hnative, has, if_neg (by simp [hf])]
  rfl

end Attempts

end FactoryRegistry

/-- The events of an attempt come after all that an extraction has told of before. -/
theorem Workshop.events_of_attempt {w : Workshop} {expansions : Nat} {item : WorkItem}
    {x x' : Extraction} {items : List WorkItem}
    (h : w.visit expansions item x = .ok (x', items)) :
    ∃ a, w.factories.attempt (.created x.created.length) item.descriptor = .ok a ∧
      x'.events = x.events ++ a.events := by
  have hevents := events_of_visit h
  cases hattempt : w.attemptAt ⟨item, x⟩ with
  | error e =>
    rw [visit] at h
    have herror : w.factories.attempt (.created x.created.length) item.descriptor = .error e :=
      hattempt
    rw [herror] at h
    cases h
  | ok a =>
    rw [eventsAt, hattempt] at hevents
    exact ⟨a, hattempt, hevents⟩

namespace FactoryRegistry

/-- A native reference without a native factory is an error, and no factory is run. If the native
factory makes a handler, it is the outcome, and no other factory is run; if it fails softly, the
factory of the type that is declared is run as well, unless that is the native one again. For other
descriptors the factory of their type is run. No type is tried twice, and factories that are not run
are of no account. The only other error is that of a factory that is run and refuses the descriptor,
and the only handler that of one that makes it. If there is neither, an event tells of it, unless
the descriptor has no resource and declares no type. Each soft failure is told in one event with its
cause, and all events are appended to those that there were. -/
theorem attempt_told_by_runs (r : FactoryRegistry) (fresh : HandlerId) (d : Descriptor) :
    (d.isNativeReference = true → r.factoryFor? nativeType = none →
      r.attempt fresh d = .error (.configuration (.nativeFactoryMissing d)) ∧
      r.runs fresh d = []) ∧
    (∀ f made, d.isNativeReference = true → r.factoryFor? nativeType = some f →
      f.create fresh d = .ok made →
      r.attempt fresh d = .ok ⟨some made, []⟩ ∧ r.runs fresh d = [nativeType]) ∧
    (∀ f failure, d.isNativeReference = true → r.factoryFor? nativeType = some f →
      f.create fresh d = .error failure → failure.IsSoft →
      r.runs fresh d = nativeType :: d.statedType?.toList.filter fun t =>
        typeKey t ≠ nativeType && (r.factoryFor? t).isSome) ∧
    (d.isNativeReference = false →
      r.runs fresh d = d.resourceType?.toList.filter fun t => (r.factoryFor? t).isSome) ∧
    ((r.runs fresh d).map typeKey).Nodup ∧
    (∀ t f, (r.factoryFor? t).isSome = true → typeKey t ∉ (r.runs fresh d).map typeKey →
      (r.register t f).attempt fresh d = r.attempt fresh d) ∧
    (∀ e, r.attempt fresh d = .error e ↔
      (d.isNativeReference = true ∧ r.factoryFor? nativeType = none ∧
        e = .configuration (.nativeFactoryMissing d)) ∨
      ∃ t ∈ r.runs fresh d, ∃ f ∈ r.factoryFor? t, ∃ message,
        f.create fresh d = .error (.invalid message) ∧ e = .factory d.label message) ∧
    (∀ made, (∃ a, r.attempt fresh d = .ok a ∧ a.made = some made) ↔
      ∃ t ∈ r.runs fresh d, ∃ f ∈ r.factoryFor? t, f.create fresh d = .ok made) ∧
    (∀ a, r.attempt fresh d = .ok a → a.IsAbout d ∧
      (a.made = none →
        (a.events = [] ↔ d.resource = none ∧ d.declaredType.all Text.isBlankText = true)) ∧
      a.events.filterMap Event.cause = (r.runs fresh d).filterMap (r.failure? fresh d)) ∧
    ∀ (w : Workshop) expansions (item : WorkItem) (x x' : Extraction) items,
      w.factories = r → item.descriptor = d → fresh = .created x.created.length →
      w.visit expansions item x = .ok (x', items) →
      ∃ a, r.attempt fresh d = .ok a ∧ x'.events = x.events ++ a.events := by
  refine ⟨fun hnative hmissing => ⟨?_, runs_of_native_missing hnative hmissing⟩, ?_, ?_, ?_,
    nodup_runs r fresh d, fun t f => attempt_register f, fun e => attempt_eq_error_iff,
    fun made => made_of_attempt_iff, ?_, ?_⟩
  · rw [attempt_eq, if_pos ⟨hnative, hmissing⟩]
  · intro f made hnative hf hcreate
    refine ⟨attempt_of_native_made hnative hf hcreate, ?_⟩
    simp [runs_of_native hnative hf, Factory.failure?, hcreate]
  · intro f failure hnative hf hcreate hsoft
    rw [runs_of_native hnative hf, if_pos]
    rw [Factory.failure?, hcreate]
    exact FactoryFailure.isSome_cause?_iff.2 hsoft
  · intro hnative
    rw [runs, Descriptor.typesToTry_of_not_native hnative, runsOf_toList]
  · intro a ha
    exact ⟨isAbout_of_attempt ha, events_eq_nil_iff ha, causes_of_attempt ha⟩
  · rintro w expansions item x x' items rfl rfl rfl hvisit
    exact Workshop.events_of_attempt hvisit

/-- The built-in factory and a native one that knows no handlers. -/
def unlinkedRegistry : FactoryRegistry :=
  FactoryRegistry.builtin.register nativeType (NativeHandlers.factory .empty)

/-- A native reference to a handler that is not there. -/
def unlinked (declared : String) : Descriptor :=
  { selector := "p", resource := some " app::Missing ", declaredType := some declared }

/-- The native factory is not run again for a type that is the native one, but another type gets its
chance. -/
theorem unlinked_runs : unlinkedRegistry.runs (.created 0) (unlinked " Native ") = [nativeType] ∧
    unlinkedRegistry.runs (.created 0) (unlinked "HANDLER") = [nativeType, "HANDLER"] := by
  have hruns (declared : String) : unlinkedRegistry.runs (.created 0) (unlinked declared) =
      nativeType :: (unlinked declared).statedType?.toList.filter fun t =>
        typeKey t ≠ nativeType && (unlinkedRegistry.factoryFor? t).isSome := by
    have hnative : (unlinked declared).isNativeReference = true := by
      change Descriptor.isNativePath (Text.trim " app::Missing ") = true
      decide +kernel
    have hf : unlinkedRegistry.factoryFor? nativeType = some (NativeHandlers.factory .empty) := by
      rw [unlinkedRegistry, factoryFor?_register, if_pos rfl]
    obtain ⟨-, -, hsoft, -⟩ :=
      attempt_told_by_runs unlinkedRegistry (.created 0) (unlinked declared)
    exact hsoft _ _ hnative hf rfl trivial
  have hkey : typeKey "HANDLER" = "handler" := by decide +kernel
  have hbuiltin : typeKey declaredType = "handler" := by decide +kernel
  have hother : "handler" ≠ nativeType := by decide
  have hregistered : (unlinkedRegistry.factoryFor? "HANDLER").isSome = true := by
    simp [unlinkedRegistry, builtin, factoryFor?_register, hkey, hbuiltin, hother]
  rw [hruns, hruns]
  constructor
  · have hstated : (unlinked " Native ").statedType? = some "Native" := by decide +kernel
    have hsame : typeKey "Native" = nativeType := by decide +kernel
    simp [hstated, hsame]
  · have hstated : (unlinked "HANDLER").statedType? = some "HANDLER" := by decide +kernel
    simp [hstated, hkey, hother, hregistered]

end FactoryRegistry

end DeliveryPipeline
