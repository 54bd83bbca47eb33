import DeliveryPipeline.CommandLine.Run
import DeliveryPipeline.Proofs.Descriptor.WrittenForm
import DeliveryPipeline.Proofs.Factory.Declared
import DeliveryPipeline.Proofs.Grouping.Keys
import DeliveryPipeline.Proofs.Value.Json

/-!
# What is shown of a pipeline

A command shows a pipeline by its summary or by its plan. The summary tells everything but the
schema, the descriptors of the handlers, their order of application, and which handlers are
unclassified: two summaries are equal, and written alike, exactly if the pipelines agree in the
rest. The plan has all targets with their descriptors, all classified handlers, the handlers of each
role and target in their order of application, and all events.
-/
namespace DeliveryPipeline

namespace Value

/-- What a structure writes of some fields goes by the names of these fields. -/
theorem notMem_written {name : String} {slots : List (String × Option Value)}
    (h : name ∉ slots.map Prod.fst) (v : Value) :
    (name, v) ∉ slots.filterMap fun s => s.2.map fun v => (s.1, v) := by
  rw [List.mem_filterMap]
  rintro ⟨s, hs, hv⟩
  obtain ⟨v', -, hname⟩ := Option.map_eq_some_iff.1 hv
  exact h (List.mem_map.2 ⟨s, hs, congrArg Prod.fst hname⟩)

/-- Structures with the same fields, which have names of their own, are written alike only if all
their fields are equal. -/
theorem eq_of_ofSlots_eq {slots slots' : List (String × Option Value)}
    (hnames : slots.map Prod.fst = slots'.map Prod.fst) (hnodup : (slots.map Prod.fst).Nodup)
    (h : ofSlots slots = ofSlots slots') : slots = slots' := by
  rw [ofSlots, ofSlots, record.injEq] at h
  induction slots generalizing slots' with
  | nil => exact (List.map_eq_nil_iff.1 hnames.symm).symm
  | cons s rest ih =>
    obtain ⟨s', rest', rfl, hname, hrest⟩ := List.map_eq_cons_iff.1 hnames.symm
    obtain ⟨name, v?⟩ := s
    obtain ⟨name', v?'⟩ := s'
    obtain rfl : name' = name := hname
    rw [List.map_cons, List.nodup_cons] at hnodup
    have hnot := notMem_written hnodup.1
    have hnot' := notMem_written (hrest ▸ hnodup.1)
    cases v? with
    | none =>
      cases v?' with
      | none => rw [ih hrest.symm hnodup.2 h]
      | some v' =>
        have hmem : (name', v') ∈ rest.filterMap fun s => s.2.map fun v => (s.1, v) := by
          rw [show rest.filterMap _ = _ from h]
          exact List.mem_cons_self
        exact absurd hmem (hnot v')
    | some v =>
      cases v?' with
      | none =>
        have hmem : (name', v) ∈ rest'.filterMap fun s => s.2.map fun v => (s.1, v) := by
          rw [← show _ = rest'.filterMap _ from h]
          exact List.mem_cons_self
        exact absurd hmem (hnot' v)
      | some v' =>
        obtain ⟨hvalue, hlater⟩ := List.cons.inj h
        rw [(Prod.mk.inj hvalue).2, ih hrest.symm hnodup.2 hlater]

end Value

namespace ProfileSet

def slots (p : ProfileSet) : List (String × Option Value) := [
  ("base", some (.text p.base)),
  ("sub_profiles", if p.subProfiles = [] then none else some (.list (p.subProfiles.map .text)))]

theorem toValue_eq (p : ProfileSet) : p.toValue = .ofSlots p.slots := by
  rw [toValue, Value.ofSlots, slots]
  by_cases h : p.subProfiles = [] <;> simp [h]

theorem toValue_injective : Function.Injective toValue := by
  intro p p' h
  rw [toValue_eq, toValue_eq] at h
  have hslots : p.slots = p'.slots := Value.eq_of_ofSlots_eq rfl (by simp [slots]) h
  simp only [slots, List.cons.injEq, Prod.mk.injEq, Option.some.injEq, Value.text.injEq, true_and,
    and_true] at hslots
  obtain ⟨hbase, hsubProfiles⟩ := hslots
  have hsubs : p.subProfiles = p'.subProfiles := by
    by_cases hnone : p.subProfiles = [] <;> by_cases hnone' : p'.subProfiles = [] <;>
      simp_all [List.map_inj_right]
  cases p
  cases p'
  simp_all

theorem exact_toValue (p : ProfileSet) : p.toValue.Exact := by
  by_cases h : p.subProfiles = [] <;> simp [toValue, h]

end ProfileSet

theorem Parameters.exact_toValue (p : Parameters) : (toValue p).Exact := by
  simp only [toValue, Value.exact_record_iff, List.forall_mem_map, Value.Exact.text, implies_true]

theorem Descriptor.exact_toValue (d : Descriptor) : d.toValue.Exact := by
  simp only [toValue, Value.exact_record_iff, List.forall_mem_append, List.forall_mem_map,
    List.forall_mem_singleton, Value.Exact.text, implies_true, true_and]
  constructor <;> split <;> simp [Parameters.exact_toValue]

namespace Event

def slots (e : Event) : List (String × Option Value) := [
  ("descriptor", e.descriptor.map Descriptor.toValue),
  ("message", some (.text e.message)),
  ("cause", e.cause.map .text)]

theorem toValue_eq (e : Event) : e.toValue = .ofSlots e.slots := by
  rw [toValue, Value.ofSlots, slots]
  cases e.descriptor <;> cases e.cause <;> rfl

theorem toValue_injective : Function.Injective toValue := by
  intro e e' h
  rw [toValue_eq, toValue_eq] at h
  have hslots : e.slots = e'.slots := Value.eq_of_ofSlots_eq rfl (by simp [slots]) h
  simp only [slots, List.cons.injEq, Prod.mk.injEq, Option.some.injEq, Value.text.injEq, true_and,
    and_true] at hslots
  obtain ⟨hdescriptor, hmessage, hcause⟩ := hslots
  have hd := (Option.map_inj_right fun _ _ heq => Descriptor.toValue_injective heq).1 hdescriptor
  have hc := (Option.map_inj_right fun _ _ heq => Value.text.inj heq).1 hcause
  cases e
  cases e'
  simp_all

theorem exact_toValue (e : Event) : e.toValue.Exact := by
  simp only [toValue, Value.exact_record_iff, List.forall_mem_append, List.forall_mem_map,
    List.forall_mem_singleton, Descriptor.exact_toValue, Value.Exact.text, implies_true, true_and]

end Event

/-- A summary tells the same of two handlers. -/
structure Entry.ShownAlike (e e' : Entry) : Prop where
  name : e.handler.name = e'.handler.name
  stream : e.handler.capabilities.stream = e'.handler.capabilities.stream
  tree : e.handler.capabilities.tree = e'.handler.capabilities.tree
  roles : e.handler.capabilities.roles = e'.handler.capabilities.roles
  targets : e.targets = e'.targets

namespace Pipeline

theorem targetValue_injective : Function.Injective targetValue := by
  rintro ⟨target, ds⟩ ⟨target', ds'⟩ h
  simpa [targetValue, List.map_inj_right fun _ _ heq => Descriptor.toValue_injective heq] using h

theorem handlerValue_eq_iff {e e' : Entry} :
    handlerValue e = handlerValue e' ↔ e.ShownAlike e' := by
  have hroles (rs rs' : List Role) :
      rs.map (fun r => Value.text r.name) = rs'.map (fun r => Value.text r.name) ↔ rs = rs' :=
    List.map_inj_right fun _ _ heq => Role.name_injective (Value.text.inj heq)
  have htargets (ts ts' : List String) : ts.map Value.text = ts'.map Value.text ↔ ts = ts' :=
    List.map_inj_right fun _ _ heq => Value.text.inj heq
  simp only [handlerValue, Value.record.injEq, List.cons.injEq, Prod.mk.injEq, Value.text.injEq,
    Value.boolean.injEq, Value.list.injEq, hroles, htargets, true_and, and_true]
  constructor
  · rintro ⟨hname, hstream, htree, hroles, htargets⟩
    exact ⟨hname, hstream, htree, hroles, htargets⟩
  · rintro ⟨hname, hstream, htree, hroles, htargets⟩
    exact ⟨hname, hstream, htree, hroles, htargets⟩

theorem exact_summary (p : Pipeline) (id builtAt : String) : (p.summary id builtAt).Exact := by
  simp [-List.mem_map, summary, summaryFields, ProfileSet.exact_toValue, Event.exact_toValue,
    targetValue, handlerValue, Descriptor.exact_toValue, List.forall_mem_map]

/-- A summary tells the same of two pipelines. -/
structure ShownAlike (p q : Pipeline) : Prop where
  profiles : p.profiles = q.profiles
  strategy : p.strategy = q.strategy
  digest : p.digest = q.digest
  table : p.table = q.table
  entries : List.Forall₂ Entry.ShownAlike p.classification.entries q.classification.entries
  unclassified : p.classification.unclassified.length = q.classification.unclassified.length
  events : p.events = q.events

theorem summary_eq_iff {p q : Pipeline} {id id' builtAt builtAt' : String} :
    p.summary id builtAt = q.summary id' builtAt' ↔
      id = id' ∧ builtAt = builtAt' ∧ p.ShownAlike q := by
  have htable : p.table.groups.map targetValue = q.table.groups.map targetValue ↔
      p.table = q.table := by
    rw [List.map_inj_right fun _ _ heq => targetValue_injective heq]
    exact ⟨congrArg Grouping.mk, congrArg Grouping.groups⟩
  have hentries : p.classification.entries.map handlerValue =
      q.classification.entries.map handlerValue ↔
      List.Forall₂ Entry.ShownAlike p.classification.entries q.classification.entries := by
    rw [← List.forall₂_eq_eq_eq, List.forall₂_map_left_iff, List.forall₂_map_right_iff]
    simp only [handlerValue_eq_iff]
  have hevents : p.events.map Event.toValue = q.events.map Event.toValue ↔ p.events = q.events :=
    List.map_inj_right fun _ _ heq => Event.toValue_injective heq
  simp only [summary, summaryFields, Value.record.injEq, List.cons_append, List.nil_append,
    List.cons.injEq, Prod.mk.injEq, Value.text.injEq, Value.list.injEq, Value.integer.injEq,
    ProfileSet.toValue_injective.eq_iff, Strategy.name_injective.eq_iff, htable, hentries, hevents,
    Int.natCast_inj, true_and, and_true]
  constructor
  · rintro ⟨hid, hprofiles, hbuiltAt, hstrategy, hdigest, htable, hentries, hunclassified, hevents⟩
    exact ⟨hid, hbuiltAt, hprofiles, hstrategy, hdigest, htable, hentries, hunclassified, hevents⟩
  · rintro ⟨hid, hbuiltAt, h⟩
    exact ⟨hid, h.profiles, hbuiltAt, h.strategy, h.digest, h.table, h.entries, h.unclassified,
      h.events⟩

/-- The text has the lines, whole and one after another. -/
def HasLines (text : String) (lines : List String) : Prop :=
  ∃ before after, text = Text.unlines (before ++ lines ++ after)

theorem hasLines_of_infix {p : Pipeline} {id : String} {lines : List String}
    (h : lines <:+: p.planLines id) : HasLines (p.plan id) lines := by
  obtain ⟨before, after, hlines⟩ := h
  exact ⟨before, after, by rw [plan, hlines]⟩

/-- The targets and handlers of a role are among those of all roles. -/
theorem mem_roles_of_mem_table {t : RoleTables} {r : Role} {group : String × List Binding}
    (h : group ∈ t.table r) : (r, t.table r) ∈ t.roles := by
  refine List.mem_filter.2 ⟨List.mem_map.2 ⟨r, ?_, rfl⟩, ?_⟩
  · cases r <;> decide
  · simpa using List.ne_nil_of_mem h

/-- A plan leaves out no target and none of its descriptors, no classified handler, no event, and no
handler of a role and target, which stand in the order of application. -/
theorem plan_shows (p : Pipeline) (id : String) :
    (∀ target, p.table.get target ≠ [] →
      HasLines (p.plan id) (targetLines (target, p.table.get target))) ∧
    HasLines (p.plan id) p.classification.reportLines ∧
    (∀ r target, p.roleTables.handlers r target ≠ [] →
      (target, p.roleTables.handlers r target) ∈ p.roleTables.table r ∧
        HasLines (p.plan id) (roleLines (r, p.roleTables.table r))) ∧
    HasLines (p.plan id) (p.events.map fun e => "  - " ++ e.line) := by
  have hblock {α : Type} {a : α} {as : List α} (f : α → List String) (h : a ∈ as) :
      f a <:+: as.flatMap f := List.infix_of_mem_flatten (List.mem_map_of_mem h)
  -- the sections of the plan, from the last one to the first
  have hevents : p.eventLines <:+: p.planLines id := List.infix_append_right
  have hroles : p.roleTables.roles.flatMap roleLines <:+: p.planLines id :=
    List.infix_append_of_infix_left List.infix_append_right
  have hreport : p.classification.reportLines <:+: p.planLines id :=
    List.infix_append_of_infix_left (List.infix_append_of_infix_left List.infix_append_right)
  have htargets : p.table.groups.flatMap targetLines <:+: p.planLines id :=
    List.infix_append_of_infix_left (List.infix_append_of_infix_left
      (List.infix_append_of_infix_left (List.infix_append_of_infix_left List.infix_append_right)))
  refine ⟨fun target h => ?_, hasLines_of_infix hreport, fun r target h => ?_, ?_⟩
  · have hgroup := Grouping.mem_groups_of_get_ne_nil h
    exact hasLines_of_infix ((hblock targetLines hgroup).trans htargets)
  · have hgroup := Grouping.mem_groups_of_get_ne_nil h
    have htable : (target, p.roleTables.handlers r target) ∈ p.roleTables.table r :=
      List.mem_map.2 ⟨_, List.mem_filter.2 ⟨hgroup, by simp⟩, rfl⟩
    have hrole := mem_roles_of_mem_table htable
    exact ⟨htable, hasLines_of_infix ((hblock roleLines hrole).trans hroles)⟩
  · refine hasLines_of_infix (List.IsInfix.trans ?_ hevents)
    rw [eventLines]
    split
    next hnone => simp [List.isEmpty_iff.1 hnone]
    next => exact ((List.suffix_cons _ _).trans (List.suffix_cons _ _)).isInfix

end Pipeline

namespace CommandLine.PlanRequest

variable {around : Surroundings} {q : PlanRequest}

theorem render_of_plain (h : q.json = false) (p : Pipeline) :
    q.render around p = p.plan around.pipelineId := by
  simp [render, h]

/-- As a JSON text, two pipelines are shown alike exactly if they agree in what a summary tells. -/
theorem render_eq_iff (h : q.json = true) (p p' : Pipeline) :
    q.render around p = q.render around p' ↔ p.ShownAlike p' := by
  have hexact (p : Pipeline) := p.exact_summary around.pipelineId around.builtAt
  simp only [render, h, if_true, String.append_left_inj, Json.ofValue_inj (hexact p) (hexact p'),
    Pipeline.summary_eq_iff, true_and]

end CommandLine.PlanRequest

end DeliveryPipeline
