import DeliveryPipeline.Factory.Declared
import DeliveryPipeline.Proofs.FirstOccurrences
import DeliveryPipeline.Proofs.Text.Pieces

/-!
# Reading declared handlers

A descriptor lists the modes and the roles of a declared handler. The handler is made if every item
of both lists is a name, and it has what is listed, each role once where it is first mentioned. The
first item that is no name is the error, and modes are read before roles.
-/
namespace DeliveryPipeline

theorem Strategy.parse?_eq_some_iff {t : String} {s : Strategy} :
    Strategy.parse? t = some s ↔ (Text.trim t).toLower = s.name := by
  have hother : "stream" ≠ "tree" := by decide
  rw [Strategy.parse?]
  cases s with
  | stream =>
    by_cases h : (Text.trim t).toLower = "stream"
    · simp [h, name]
    · by_cases h' : (Text.trim t).toLower = "tree" <;> simp [h, h', name]
  | tree =>
    by_cases h : (Text.trim t).toLower = "stream"
    · simp [h, name, hother]
    · simp [h, name]

theorem Strategy.name_injective : Function.Injective Strategy.name := by
  intro s s' h
  cases s <;> cases s' <;> simp_all [Strategy.name]

theorem Role.name_injective : Function.Injective Role.name := by
  intro r r' h
  cases r <;> cases r' <;> simp_all [Role.name]

theorem Role.toLower_name (r : Role) : r.name.toLower = r.name := by
  cases r <;> decide +kernel

theorem Role.parse?_eq_some_iff {t : String} {r : Role} :
    Role.parse? t = some r ↔ (Text.trim t).toLower = r.name := by
  have hsame (r : Role) : Text.sameIgnoringCase r.name (Text.trim t) = true ↔
      (Text.trim t).toLower = r.name := by
    rw [Text.sameIgnoringCase, toLower_name, beq_iff_eq, eq_comm]
  have hfind (r : Role) (h : Role.parse? t = some r) : (Text.trim t).toLower = r.name := by
    rw [Role.parse?] at h
    have hr := List.find?_some h
    exact (hsame r).1 hr
  constructor
  · exact hfind r
  · intro h
    have hmem : r ∈ Role.all := by cases r <;> decide
    cases hfound : Role.parse? t with
    | none => exact absurd ((hsame r).2 h) (List.find?_eq_none.1 hfound r hmem)
    | some r' => rw [name_injective ((hfind r' hfound).symm.trans h)]

/-- A reader takes names in any ASCII case with blanks around them, and tells of any other text. -/
structure ReadsNames {α : Type} (parse : String → Except Error α) (name : α → String)
    (fault : String → Misconfiguration) : Prop where
  ok_iff : ∀ {t a}, parse t = .ok a ↔ (Text.trim t).toLower = name a
  error_of : ∀ {t}, (∀ a, (Text.trim t).toLower ≠ name a) →
    parse t = .error (.configuration (fault t))

theorem readsNames_of_parse? {α : Type} {parse? : String → Option α} {name : α → String}
    {fault : String → Misconfiguration} {parse : String → Except Error α}
    (h : ∀ {t a}, parse? t = some a ↔ (Text.trim t).toLower = name a)
    (hparse : ∀ t, parse t = match parse? t with
      | some a => .ok a
      | none => .error (.configuration (fault t))) : ReadsNames parse name fault where
  ok_iff {t a} := by
    rw [← h, hparse]
    cases parse? t <;> simp
  error_of {t} hnone := by
    rw [hparse]
    cases hfound : parse? t with
    | none => rfl
    | some a => exact absurd (h.1 hfound) (hnone a)

theorem Strategy.readsNames : ReadsNames Strategy.parse Strategy.name .unknownStrategy :=
  readsNames_of_parse? parse?_eq_some_iff fun t => by
    rw [Strategy.parse]
    cases Strategy.parse? t <;> rfl

theorem Role.readsNames : ReadsNames Role.parse Role.name .unknownRole :=
  readsNames_of_parse? parse?_eq_some_iff fun t => by
    rw [Role.parse]
    cases Role.parse? t <;> rfl

namespace ReadsNames

variable {α : Type} {parse : String → Except Error α} {name : α → String}
  {fault : String → Misconfiguration} {ts before after : List String} {t : String} {as : List α}

/-- Texts are read in turn as what they name. -/
theorem mapM_eq_ok_iff (h : ReadsNames parse name fault) :
    ts.mapM parse = .ok as ↔ ts.map (fun t => (Text.trim t).toLower) = as.map name := by
  induction ts generalizing as with
  | nil => simp [pure, Except.pure, eq_comm]
  | cons t ts ih =>
    rw [List.mapM_cons, Error.bind_eq_ok_iff]
    cases as with
    | nil => simp [Error.bind_eq_ok_iff, pure, Except.pure]
    | cons a as => simp [Error.bind_eq_ok_iff, pure, Except.pure, h.ok_iff, ih]

theorem exists_mapM_eq_ok_iff (h : ReadsNames parse name fault) :
    (∃ as, ts.mapM parse = .ok as) ↔ ∀ t ∈ ts, ∃ a, (Text.trim t).toLower = name a := by
  induction ts with
  | nil => simp [pure, Except.pure]
  | cons t ts ih =>
    rw [List.forall_mem_cons, ← ih]
    simp [List.mapM_cons, Error.bind_eq_ok_iff, pure, Except.pure, h.ok_iff]

/-- The first text that names nothing is the error. -/
theorem mapM_append_cons (h : ReadsNames parse name fault)
    (hbefore : ∀ t ∈ before, ∃ a, (Text.trim t).toLower = name a)
    (ht : ∀ a, (Text.trim t).toLower ≠ name a) :
    (before ++ t :: after).mapM parse = .error (.configuration (fault t)) := by
  induction before with
  | nil =>
    rw [List.nil_append, List.mapM_cons, h.error_of ht]
    rfl
  | cons first before ih =>
    obtain ⟨⟨a, ha⟩, hbefore⟩ := List.forall_mem_cons.1 hbefore
    rw [List.cons_append, List.mapM_cons, h.ok_iff.2 ha, ih hbefore]
    rfl

end ReadsNames

namespace Capabilities

/-- The capabilities with the given modes and roles. -/
def ofLists (modes : List Strategy) (roles : List Role) : Capabilities where
  stream := modes.contains .stream
  tree := modes.contains .tree
  roles := roles.eraseDups
  roles_nodup := nodup_eraseDups roles

theorem supports_ofLists {modes : List Strategy} {roles : List Role} {s : Strategy} :
    (ofLists modes roles).supports s = true ↔ s ∈ modes := by
  cases s <;> exact List.contains_iff_mem

theorem foldl_addStrategy (modes : List Strategy) (c : Capabilities) :
    modes.foldl addStrategy c =
      { c with
        stream := c.stream || modes.contains .stream
        tree := c.tree || modes.contains .tree } := by
  induction modes generalizing c with
  | nil => simp
  | cons s modes ih =>
    rw [List.foldl_cons, ih]
    cases s <;> simp [addStrategy]

theorem addRole_eq (c : Capabilities) (r : Role) : c.addRole r =
    { c with roles := pushNew c.roles r, roles_nodup := nodup_pushNew c.roles_nodup r } := by
  unfold addRole pushNew
  split <;> rfl

theorem foldl_addRole (roles : List Role) (c : Capabilities)
    (hroles : (roles.foldl pushNew c.roles).Nodup) : roles.foldl addRole c =
      { c with roles := roles.foldl pushNew c.roles, roles_nodup := hroles } := by
  induction roles generalizing c with
  | nil => rfl
  | cons r roles ih =>
    rw [List.foldl_cons] at hroles
    rw [List.foldl_cons, addRole_eq, ih _ hroles]
    rfl

/-- Modes and roles that are added one after another are those of the lists. -/
theorem foldl_add_eq_ofLists (modes : List Strategy) (roles : List Role) :
    roles.foldl addRole (modes.foldl addStrategy .empty) = ofLists modes roles := by
  have hroles : roles.foldl pushNew (modes.foldl addStrategy .empty).roles = roles.eraseDups := by
    rw [foldl_addStrategy]
    exact foldl_pushNew_nil roles
  rw [foldl_addRole _ _ (hroles ▸ nodup_eraseDups roles)]
  simp only [hroles]
  simp [foldl_addStrategy, ofLists, empty]

end Capabilities

namespace Declared

/-- The items that a descriptor lists for a parameter, without the blanks around them. -/
def items (d : Descriptor) (parameter : String) : List String :=
  Text.commaList ((d.parameter? parameter).getD "")

variable {fresh : HandlerId} {d : Descriptor} {made : Creation} {e : Error} {parameter t : String}

theorem trim_of_mem_items (h : t ∈ items d parameter) : Text.trim t = t :=
  Text.trim_of_mem_commaList h

theorem map_items (d : Descriptor) (parameter : String) :
    (items d parameter).map (fun t => (Text.trim t).toLower) =
      (items d parameter).map String.toLower :=
  List.map_congr_left fun t ht => by rw [trim_of_mem_items ht]

theorem modes_eq_ok_iff {ms : List Strategy} :
    modes d = .ok ms ↔ (items d "modes").map String.toLower = ms.map Strategy.name := by
  rw [← map_items]
  exact Strategy.readsNames.mapM_eq_ok_iff

theorem roles_eq_ok_iff {rs : List Role} :
    roles d = .ok rs ↔ (items d "roles").map String.toLower = rs.map Role.name := by
  rw [← map_items]
  exact Role.readsNames.mapM_eq_ok_iff

theorem capabilities_eq_ok_iff {c : Capabilities} : capabilities d = .ok c ↔
    ∃ ms rs, (items d "modes").map String.toLower = ms.map Strategy.name ∧
      (items d "roles").map String.toLower = rs.map Role.name ∧ c = .ofLists ms rs := by
  simp only [capabilities, Error.bind_eq_ok_iff, modes_eq_ok_iff, roles_eq_ok_iff,
    Capabilities.foldl_add_eq_ofLists]
  constructor
  · rintro ⟨ms, hms, rs, hrs, hc⟩
    cases hc
    exact ⟨ms, rs, hms, hrs, rfl⟩
  · rintro ⟨ms, rs, hms, hrs, rfl⟩
    exact ⟨ms, hms, rs, hrs, rfl⟩

theorem create_eq_ok_iff : create fresh d = .ok made ↔
    ∃ c, capabilities d = .ok c ∧ made = { handler := ⟨fresh, name d, c⟩ } := by
  rw [create]
  cases capabilities d <;> simp [eq_comm]

theorem create_of_error (h : capabilities d = .error e) :
    create fresh d = .error (.invalid e.message) := by
  rw [create, h]

/-- Each of the texts is a name, in some ASCII case. -/
def AllNames {α : Type} (name : α → String) (ts : List String) : Prop :=
  ∀ t ∈ ts, ∃ a, t.toLower = name a

theorem exists_modes_iff :
    (∃ ms, modes d = .ok ms) ↔ AllNames Strategy.name (items d "modes") :=
  Strategy.readsNames.exists_mapM_eq_ok_iff.trans
    (forall₂_congr fun t ht => by rw [trim_of_mem_items ht])

theorem exists_roles_iff : (∃ rs, roles d = .ok rs) ↔ AllNames Role.name (items d "roles") :=
  Role.readsNames.exists_mapM_eq_ok_iff.trans
    (forall₂_congr fun t ht => by rw [trim_of_mem_items ht])

theorem exists_create_iff (fresh : HandlerId) (d : Descriptor) :
    (∃ made, create fresh d = .ok made) ↔
      AllNames Strategy.name (items d "modes") ∧ AllNames Role.name (items d "roles") := by
  rw [← exists_modes_iff, ← exists_roles_iff]
  simp only [create_eq_ok_iff, capabilities, Error.bind_eq_ok_iff]
  constructor
  · rintro ⟨-, -, ⟨ms, hms, rs, hrs, -⟩, -⟩
    exact ⟨⟨ms, hms⟩, rs, hrs⟩
  · rintro ⟨⟨ms, hms⟩, rs, hrs⟩
    exact ⟨_, _, ⟨ms, hms, rs, hrs, rfl⟩, rfl⟩

section FirstFault

variable {before after : List String}

/-- An item that is no name, behind items that are names, is the error of the list. -/
theorem mapM_items {α : Type} {parse : String → Except Error α} {name : α → String}
    {fault : String → Misconfiguration} (h : ReadsNames parse name fault)
    (hitems : items d parameter = before ++ t :: after) (hbefore : AllNames name before)
    (ht : ∀ a, t.toLower ≠ name a) :
    (items d parameter).mapM parse = .error (.configuration (fault t)) := by
  have htrim : ∀ u ∈ before ++ t :: after, Text.trim u = u := fun u hu =>
    trim_of_mem_items (hitems ▸ hu)
  rw [hitems]
  refine h.mapM_append_cons (fun u hu => ?_) ?_
  · rw [htrim u (List.mem_append_left _ hu)]
    exact hbefore u hu
  · rwa [htrim t (by simp)]

theorem create_of_unknownMode (hitems : items d "modes" = before ++ t :: after)
    (hbefore : AllNames Strategy.name before) (ht : ∀ s : Strategy, t.toLower ≠ s.name) :
    create fresh d =
      .error (.invalid (Error.configuration (.unknownStrategy t)).message) := by
  have hmodes : modes d = .error (.configuration (.unknownStrategy t)) :=
    mapM_items Strategy.readsNames hitems hbefore ht
  apply create_of_error
  rw [capabilities, hmodes]
  rfl

theorem create_of_unknownRole (hmodes : AllNames Strategy.name (items d "modes"))
    (hitems : items d "roles" = before ++ t :: after) (hbefore : AllNames Role.name before)
    (ht : ∀ r : Role, t.toLower ≠ r.name) :
    create fresh d = .error (.invalid (Error.configuration (.unknownRole t)).message) := by
  obtain ⟨ms, hms⟩ := exists_modes_iff.2 hmodes
  have hroles : roles d = .error (.configuration (.unknownRole t)) :=
    mapM_items Role.readsNames hitems hbefore ht
  apply create_of_error
  rw [capabilities, hms, hroles]
  rfl

end FirstFault

/-- A handler supports the modes that are listed. -/
theorem supports_of_create (h : create fresh d = .ok made) (s : Strategy) :
    made.handler.capabilities.supports s = true ↔
      s.name ∈ (items d "modes").map String.toLower := by
  obtain ⟨c, hc, rfl⟩ := create_eq_ok_iff.1 h
  obtain ⟨ms, rs, hms, -, rfl⟩ := capabilities_eq_ok_iff.1 hc
  rw [Capabilities.supports_ofLists, hms, List.mem_map_of_injective Strategy.name_injective]

/-- It has the roles that are listed, in the order in which they are first mentioned. -/
theorem roles_of_create (h : create fresh d = .ok made) :
    made.handler.capabilities.roles.map Role.name =
      ((items d "roles").map String.toLower).eraseDups := by
  obtain ⟨c, hc, rfl⟩ := create_eq_ok_iff.1 h
  obtain ⟨ms, rs, -, hrs, rfl⟩ := capabilities_eq_ok_iff.1 hc
  rw [hrs, ← map_eraseDups Role.name_injective]
  rfl

end Declared

end DeliveryPipeline
