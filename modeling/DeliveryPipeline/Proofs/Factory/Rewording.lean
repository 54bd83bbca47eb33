import DeliveryPipeline.Proofs.Classification.Exchange
import DeliveryPipeline.Proofs.Factory.Declared
import DeliveryPipeline.Proofs.Text.Wording

/-!
# Other wordings of a declared handler

The modes and the roles of a declared handler may be worded in many ways. Case, blanks, empty items
and repeats make no difference to the handler, nor does the order of the modes. The order of the
roles is that of the handler's roles, but it makes no difference to what the handler does to a
classification.
-/
namespace DeliveryPipeline

namespace Capabilities

theorem ofLists_congr {modes modes' : List Strategy} {roles roles' : List Role}
    (hmodes : ∀ s, s ∈ modes ↔ s ∈ modes') (hroles : roles.eraseDups = roles'.eraseDups) :
    ofLists modes roles = ofLists modes' roles' := by
  simp only [ofLists, hroles]
  simp [hmodes]

end Capabilities

namespace Declared

/-- Two descriptors that differ in the wording of their modes and roles alone. -/
structure SameLists (reorders : Prop) (d d' : Descriptor) : Prop where
  rest_eq : { d with parameters := d'.parameters } = d'
  parameter_eq : ∀ parameter, parameter ≠ "modes" → parameter ≠ "roles" →
    d.parameter? parameter = d'.parameter? parameter
  modes : Text.SameList True ((d.parameter? "modes").getD "") ((d'.parameter? "modes").getD "")
  roles : Text.SameList reorders ((d.parameter? "roles").getD "")
    ((d'.parameter? "roles").getD "")

section SameLists

variable {reorders : Prop} {d d' : Descriptor} {fresh fresh' : HandlerId} {made made' : Creation}

theorem allNames_congr {α : Type} {name : α → String} {ts ts' : List String}
    (h : ∀ key, key ∈ ts.map String.toLower ↔ key ∈ ts'.map String.toLower) :
    AllNames name ts ↔ AllNames name ts' := by
  have hkeys (ts : List String) :
      AllNames name ts ↔ ∀ key ∈ ts.map String.toLower, ∃ a, key = name a := by
    simp [AllNames]
  rw [hkeys, hkeys]
  exact forall_congr' fun key => imp_congr_left (h key)

theorem SameLists.name_eq (h : SameLists reorders d d') : name d = name d' := by
  have hselector : d.selector = d'.selector := by rw [← h.rest_eq]
  have hresource : d.resource = d'.resource := by rw [← h.rest_eq]
  rw [name, h.parameter_eq "name" (by decide) (by decide), hselector, hresource, ← name]

theorem SameLists.exists_create_iff (h : SameLists reorders d d') (fresh fresh' : HandlerId) :
    (∃ made, create fresh d = .ok made) ↔ ∃ made, create fresh' d' = .ok made := by
  rw [Declared.exists_create_iff, Declared.exists_create_iff]
  exact and_congr (allNames_congr h.modes.mem_iff) (allNames_congr h.roles.mem_iff)

/-- Where the roles are not reordered, the handlers are the same. -/
theorem SameLists.made_eq (h : SameLists False d d') (hmade : create fresh d = .ok made)
    (hmade' : create fresh d' = .ok made') : made = made' := by
  obtain ⟨c, hc, rfl⟩ := create_eq_ok_iff.1 hmade
  obtain ⟨c', hc', rfl⟩ := create_eq_ok_iff.1 hmade'
  obtain ⟨ms, rs, hms, hrs, rfl⟩ := capabilities_eq_ok_iff.1 hc
  obtain ⟨ms', rs', hms', hrs', rfl⟩ := capabilities_eq_ok_iff.1 hc'
  -- names are told apart, so what holds of the listed names holds of what they name
  have hmodes (s : Strategy) : s ∈ ms ↔ s ∈ ms' := by
    rw [← List.mem_map_of_injective Strategy.name_injective, ← hms,
      ← List.mem_map_of_injective Strategy.name_injective (l := ms'), ← hms']
    exact h.modes.mem_iff s.name
  have hroles : rs.eraseDups = rs'.eraseDups := by
    apply Role.name_injective.list_map
    rw [map_eraseDups Role.name_injective, ← hrs, map_eraseDups Role.name_injective, ← hrs']
    exact h.roles.eraseDups_eq
  rw [h.name_eq, Capabilities.ofLists_congr hmodes hroles]

theorem SameLists.create_eq_ok_iff (h : SameLists False d d') :
    create fresh d = .ok made ↔ create fresh d' = .ok made := by
  constructor
  · intro hmade
    obtain ⟨made', hmade'⟩ := (h.exists_create_iff fresh fresh).1 ⟨made, hmade⟩
    rwa [h.made_eq hmade hmade']
  · intro hmade'
    obtain ⟨made₀, hmade⟩ := (h.exists_create_iff fresh fresh).2 ⟨made, hmade'⟩
    rwa [← h.made_eq hmade hmade']

theorem SameLists.interchangeable (h : SameLists reorders d d') (hmade : create fresh d = .ok made)
    (hmade' : create fresh' d' = .ok made') : made.handler.Interchangeable made'.handler where
  supports_eq s := by
    rw [Bool.eq_iff_iff, supports_of_create hmade, supports_of_create hmade']
    exact h.modes.mem_iff s.name
  roles_perm := by
    rw [List.perm_ext_iff_of_nodup made.handler.capabilities.roles_nodup
      made'.handler.capabilities.roles_nodup]
    intro r
    rw [← List.mem_map_of_injective Role.name_injective, roles_of_create hmade,
      ← List.mem_map_of_injective Role.name_injective, roles_of_create hmade', List.mem_eraseDups,
      List.mem_eraseDups]
    exact h.roles.mem_iff r.name

end SameLists

/-- The factory makes a handler exactly if all modes and all roles that are listed are names, in any
ASCII case and with blanks around them. The handler supports the modes and has the roles that are
listed, each role once in the order of first mention. The first item that is no name is the error,
and modes are read before roles. Other wordings of the lists come to the same handler, and if the
roles are reordered as well, to one that makes the same role tables of any classification. -/
theorem create_reads_lists (fresh : HandlerId) (d : Descriptor) :
    ((∃ made, create fresh d = .ok made) ↔
      AllNames Strategy.name (items d "modes") ∧ AllNames Role.name (items d "roles")) ∧
    (∀ made, create fresh d = .ok made →
      made.handler.id = fresh ∧ made.handler.name = name d ∧
      (∀ s, made.handler.capabilities.supports s = true ↔
        s.name ∈ (items d "modes").map String.toLower) ∧
      made.handler.capabilities.roles.map Role.name =
        ((items d "roles").map String.toLower).eraseDups) ∧
    (∀ before t after, items d "modes" = before ++ t :: after → AllNames Strategy.name before →
      (∀ s : Strategy, t.toLower ≠ s.name) →
      create fresh d =
        .error (.invalid (Error.configuration (.unknownStrategy t)).message)) ∧
    (∀ before t after, AllNames Strategy.name (items d "modes") →
      items d "roles" = before ++ t :: after → AllNames Role.name before →
      (∀ r : Role, t.toLower ≠ r.name) →
      create fresh d = .error (.invalid (Error.configuration (.unknownRole t)).message)) ∧
    (∀ d', SameLists False d d' →
      ∀ made, create fresh d = .ok made ↔ create fresh d' = .ok made) ∧
    ∀ d' fresh', SameLists True d d' →
      ((∃ made, create fresh d = .ok made) ↔ ∃ made', create fresh' d' = .ok made') ∧
      ∀ made made', create fresh d = .ok made → create fresh' d' = .ok made' →
      ∀ (c : Classification) (e : Descriptor) (targets : List String),
        c.contains fresh = c.contains fresh' → ∀ s,
        ((c.add made.handler e targets).tables s).Exchanged made.handler made'.handler e
          ((c.add made'.handler e targets).tables s) := by
  have hid {fresh : HandlerId} {d : Descriptor} {made : Creation}
      (hmade : create fresh d = .ok made) :
      made.handler.id = fresh ∧ made.handler.name = name d := by
    obtain ⟨c, -, rfl⟩ := Declared.create_eq_ok_iff.1 hmade
    exact ⟨rfl, rfl⟩
  refine ⟨exists_create_iff fresh d, fun made hmade => ?_, ?_, ?_, ?_, ?_⟩
  · exact ⟨(hid hmade).1, (hid hmade).2, supports_of_create hmade, roles_of_create hmade⟩
  · exact fun before t after => create_of_unknownMode
  · exact fun before t after => create_of_unknownRole
  · exact fun d' hsame made => hsame.create_eq_ok_iff
  · intro d' fresh' hsame
    refine ⟨hsame.exists_create_iff fresh fresh', ?_⟩
    intro made made' hmade hmade' c e targets hcontains s
    rw [← (hid hmade).1, ← (hid hmade').1] at hcontains
    exact Classification.exchanged_add (hsame.interchangeable hmade hmade') hcontains e targets s

/-- A serializer with the given modes and roles. -/
def serializer (modes roles : String) : Descriptor :=
  (({ selector := "p" } : Descriptor).setParameter "modes" modes).setParameter "roles" roles

theorem parameter?_serializer (modes roles parameter : String) :
    (serializer modes roles).parameter? parameter = if parameter = "roles" then some roles
      else if parameter = "modes" then some modes else none := by
  simp [serializer, Descriptor.parameter?, Descriptor.setParameter, Dictionary.get?_set]

/-- The modes are reordered, one of them is capitalised, and an empty item is put in. -/
theorem sameList_modes : Text.SameList True "tree,stream" "Stream,,tree" := by
  have hpieces : "tree,stream".toList.splitOnP (· == ',') =
      ["tree".toList, "stream".toList] := by decide +kernel
  have hpieces' : "Stream,,tree".toList.splitOnP (· == ',') =
      ["Stream".toList, [], "tree".toList] := by decide +kernel
  have hcase : Text.pieceKey "stream".toList = Text.pieceKey "Stream".toList := by
    decide +kernel
  rw [Text.SameList, hpieces, hpieces']
  refine .trans _ _ _ (.rel _ _ (.reorder trivial (.swap "stream".toList _ _))) ?_
  refine .trans _ _ _ (.rel _ _ (.respell [] ["tree".toList] hcase)) ?_
  exact .rel _ _ (.blank ["Stream".toList] ["tree".toList] (by simp))

/-- The roles are reordered, and a blank is put before one of them. -/
theorem sameList_roles : Text.SameList True "cleanup,serialize" " serialize,cleanup" := by
  have hpieces : "cleanup,serialize".toList.splitOnP (· == ',') =
      ["cleanup".toList, "serialize".toList] := by decide +kernel
  have hpieces' : " serialize,cleanup".toList.splitOnP (· == ',') =
      [" serialize".toList, "cleanup".toList] := by decide +kernel
  have hblank : Text.pieceKey "serialize".toList = Text.pieceKey " serialize".toList := by
    decide +kernel
  rw [Text.SameList, hpieces, hpieces']
  refine .trans _ _ _ (.rel _ _ (.reorder trivial (.swap "serialize".toList _ _))) ?_
  exact .rel _ _ (.respell [] ["cleanup".toList] hblank)

/-- The serializer with its modes, and its roles as well, in another wording. -/
theorem sameLists_serializer :
    SameLists False (serializer "tree,stream" "cleanup,serialize")
      (serializer "Stream,,tree" "cleanup,serialize") ∧
    SameLists True (serializer "tree,stream" "cleanup,serialize")
      (serializer "Stream,,tree" " serialize,cleanup") := by
  constructor
  · refine ⟨rfl, fun parameter hmodes hroles => ?_, ?_, ?_⟩
    · simp [parameter?_serializer, hmodes, hroles]
    · simpa [parameter?_serializer] using sameList_modes
    · exact .refl _
  · refine ⟨rfl, fun parameter hmodes hroles => ?_, ?_, ?_⟩
    · simp [parameter?_serializer, hmodes, hroles]
    · simpa [parameter?_serializer] using sameList_modes
    · simpa [parameter?_serializer] using sameList_roles

/-- Two wordings make handlers that are added alike. A mode that is no name is told of before a role
is read. -/
theorem serializers_made_alike :
    (∃ made made',
      create (.created 0) (serializer "tree,stream" "cleanup,serialize") = .ok made ∧
      create (.created 0) (serializer "Stream,,tree" "cleanup,serialize") = .ok made ∧
      create (.created 1) (serializer "Stream,,tree" " serialize,cleanup") = .ok made' ∧
      made.handler.capabilities.roles.map Role.name = ["cleanup", "serialize"] ∧
      made'.handler.capabilities.roles.map Role.name = ["serialize", "cleanup"] ∧
      ∀ e targets s, ((({} : Classification).add made.handler e targets).tables s).Exchanged
        made.handler made'.handler e
        ((({} : Classification).add made'.handler e targets).tables s)) ∧
    create (.created 0) (serializer "Sax,dom" "none") =
      .error (.invalid (Error.configuration (.unknownStrategy "Sax")).message) ∧
    create (.created 0) (serializer "" "none,cleanup") =
      .error (.invalid (Error.configuration (.unknownRole "none")).message) := by
  obtain ⟨-, hlisted, -, -, hsame, halike⟩ :=
    create_reads_lists (.created 0) (serializer "tree,stream" "cleanup,serialize")
  obtain ⟨-, hlisted', -⟩ :=
    create_reads_lists (.created 1) (serializer "Stream,,tree" " serialize,cleanup")
  obtain ⟨-, -, hmode, -⟩ := create_reads_lists (.created 0) (serializer "Sax,dom" "none")
  obtain ⟨-, -, -, hrole, -⟩ := create_reads_lists (.created 0) (serializer "" "none,cleanup")
  obtain ⟨hexists, hexchanged⟩ := halike _ (.created 1) sameLists_serializer.2
  refine ⟨?_, ?_, ?_⟩
  · have hcapabilities : capabilities (serializer "tree,stream" "cleanup,serialize") =
        .ok (.ofLists [.tree, .stream] [.cleanup, .serialize]) := by decide +kernel
    obtain ⟨made, hmade⟩ : ∃ made, create (.created 0)
        (serializer "tree,stream" "cleanup,serialize") = .ok made :=
      ⟨_, create_eq_ok_iff.2 ⟨_, hcapabilities, rfl⟩⟩
    obtain ⟨made', hmade'⟩ := hexists.1 ⟨made, hmade⟩
    obtain ⟨-, -, -, hroles⟩ := hlisted made hmade
    obtain ⟨-, -, -, hroles'⟩ := hlisted' made' hmade'
    refine ⟨made, made', hmade, (hsame _ sameLists_serializer.1 made).1 hmade, hmade', ?_, ?_, ?_⟩
    · rw [hroles]
      decide +kernel
    · rw [hroles']
      decide +kernel
    · exact fun e targets => hexchanged made made' hmade hmade' {} e targets rfl
  · have hitems : items (serializer "Sax,dom" "none") "modes" = [] ++ "Sax" :: ["dom"] := by
      decide +kernel
    have hsax : "Sax".toLower = "sax" := by decide +kernel
    refine hmode _ _ _ hitems (by simp [AllNames]) fun s => ?_
    cases s <;> simp [hsax, Strategy.name]
  · have hnone : items (serializer "" "none,cleanup") "modes" = [] := by decide +kernel
    have hitems : items (serializer "" "none,cleanup") "roles" = [] ++ "none" :: ["cleanup"] := by
      decide +kernel
    have hlower : "none".toLower = "none" := by decide +kernel
    refine hrole _ _ _ (by simp [AllNames, hnone]) hitems (by simp [AllNames]) fun r => ?_
    cases r <;> simp [hlower, Role.name]

end Declared

end DeliveryPipeline
