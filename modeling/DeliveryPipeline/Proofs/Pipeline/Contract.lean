import DeliveryPipeline.Proofs.Classification.Support
import DeliveryPipeline.Proofs.Extraction.Growth
import DeliveryPipeline.Proofs.Pipeline.Stages

/-!
# What a pipeline promises

An execution engine runs the handlers that the role tables of a pipeline list. Of a build that
succeeds, it may rely on this: every classified handler supports the strategy, the role tables list
exactly what the entries say, in the order that the global parameters ask for, and the events end
with the report on the handlers and the choice of the strategy.
-/
namespace DeliveryPipeline

/-- What a pipeline promises that was built from an extraction and the handlers handed in. -/
structure Pipeline.Contract (q : Pipeline) (extra : Option Classification) (x : Extraction) :
    Prop where
  supported : ∀ e ∈ q.classification.entries, e.handler.capabilities.supports q.strategy = true
  mem_handlers_iff : ∀ role target b, b ∈ q.roleTables.handlers role target ↔
    ∃ e ∈ q.classification.entries, e.binding = b ∧
      (∃ r ∈ e.handler.capabilities.roles, r.under q.strategy = role) ∧ target ∈ e.targets
  mem_pairs_iff : ∀ role target b,
    ((role, target), b) ∈ q.roleTables.pairs ↔ b ∈ q.roleTables.handlers role target
  sorted : q.table.globalFlag sortHandlersParameter true = true → ∀ role target,
    StablySorted q.profiles Binding.descriptor (q.classification.listed q.strategy role target)
      (q.roleTables.handlers role target)
  unsorted : q.table.globalFlag sortHandlersParameter true = false → ∀ role target,
    q.roleTables.handlers role target = q.classification.listed q.strategy role target
  /-- The merged handlers come last, in the order in which they were handed in. -/
  entries_eq : ∃ merged : List Entry,
    merged.Sublist (extra.elim [] Classification.recorded) ∧
      q.classification.entries = x.classification.entries ++ merged
  table_eq : q.table = x.table
  events_eq : q.events = x.events ++ [
    Event.note ("handler characteristics:\n" ++ q.classification.report),
    Event.note ("using " ++ q.strategy.name ++ " strategy")]

namespace Classification

variable {c : Classification}

/-- Where all entries support a strategy, a list that rearranges what they list holds the handlers
with that role and target. -/
theorem mem_iff_of_perm_listed {s : Strategy}
    (hsupports : ∀ e ∈ c.entries, e.handler.capabilities.supports s = true) {role : Role}
    {target : String} {bs : List Binding} (hperm : bs.Perm (c.listed s role target))
    (b : Binding) :
    b ∈ bs ↔ ∃ e ∈ c.entries, e.binding = b ∧
      (∃ r ∈ e.handler.capabilities.roles, r.under s = role) ∧ target ∈ e.targets := by
  rw [hperm.mem_iff, mem_listed_iff]
  constructor
  · rintro ⟨e, he, hb, hplace⟩
    exact ⟨e, he, hb, (Entry.mem_places_iff (hsupports e he) role target).1 hplace⟩
  · rintro ⟨e, he, hb, hplace⟩
    exact ⟨e, he, hb, (Entry.mem_places_iff (hsupports e he) role target).2 hplace⟩

theorem entries_merged (c : Classification) (extra : Option Classification) :
    ∃ merged : List Entry, merged.Sublist (extra.elim [] recorded) ∧
      (extra.elim c c.merge).entries = c.entries ++ merged := by
  cases extra with
  | none => exact ⟨[], .slnil, by simp⟩
  | some other => exact entries_merge c other

theorem Placed.merged (hc : c.Placed) (extra : Option Classification) :
    (extra.elim c c.merge).Placed := by
  cases extra with
  | none => exact hc
  | some other => exact (grows_merge c other).placed hc

end Classification

/-- The pipeline that is assembled from a draft keeps the contract, if the classification of the
draft is in step with its role tables. -/
theorem Environment.contract_of_assemble {p : ProfileSet} {extra : Option Classification}
    {d : Draft} {q : Pipeline} (h : assemble p extra d = .ok q)
    (hplaced : d.extraction.classification.Placed) : q.Contract extra d.extraction := by
  obtain ⟨requested, -, hresolve, hq⟩ := assemble_eq_ok h
  have hsupports := Classification.supports_of_resolve hresolve
  have hmerged : (d.merged extra).Placed := hplaced.merged extra
  obtain ⟨merged, hsub, hentries⟩ := d.extraction.classification.entries_merged extra
  generalize q.strategy = s at *
  subst hq
  -- a sort touches the lists alone, so the flag matters only where they meet what the entries list
  cases hflag : d.extraction.table.globalFlag sortHandlersParameter true with
  | true =>
    have hsorted := hmerged.stablySorted p s
    simp only [Draft.pipeline, hflag, if_true]
    exact {
      supported := hsupports
      mem_handlers_iff role target := Classification.mem_iff_of_perm_listed
        (c := (d.merged extra).sort p) hsupports (hsorted role target).perm
      mem_pairs_iff role target := Grouping.mem_pairs_iff (hmerged.nodup_keys_sort p s) _
      sorted _ := hsorted
      unsorted hoff := by simp [hflag] at hoff
      entries_eq := ⟨merged, hsub, hentries⟩
      table_eq := rfl
      events_eq := rfl }
  | false =>
    have hlisted := hmerged.handlers_eq s
    simp only [Draft.pipeline, hflag, Bool.false_eq_true, if_false]
    exact {
      supported := hsupports
      mem_handlers_iff role target :=
        Classification.mem_iff_of_perm_listed hsupports (.of_eq (hlisted role target))
      mem_pairs_iff role target := Grouping.mem_pairs_iff (hmerged.nodup_keys s) _
      sorted hon := by simp [hflag] at hon
      unsorted _ := hlisted
      entries_eq := ⟨merged, hsub, hentries⟩
      table_eq := rfl
      events_eq := rfl }

/-- A build that succeeds gives a pipeline that keeps the contract, whatever descriptors the store
holds, if self-registering handlers only add to the classification. -/
theorem Environment.contract_of_buildFrom (env : Environment) (p : ProfileSet)
    (ds : List Descriptor) (extra : Option Classification) (q : Pipeline)
    (hadds : env.factories.OnlyAdds) (hbuild : (env.buildFrom p ds extra).result = .ok q) :
    ∃ table x, env.schemaFor p ds = .ok q.schema ∧ DescriptorTable.build p q.schema ds = .ok table ∧
      (env.workshop p q.schema).extract table = .ok x ∧ q.profiles = p ∧ q.Contract extra x := by
  obtain ⟨d, hdraft, hassemble⟩ := buildFrom_eq_ok hbuild
  obtain ⟨table, hschema, htable, hextract⟩ := draft_eq_ok hdraft
  have hgrows := Workshop.grows_of_extract hadds hextract
  have hcontract := contract_of_assemble hassemble (hgrows.placed Classification.placed_empty)
  obtain ⟨_, -, -, hq⟩ := assemble_eq_ok hassemble
  have hprofiles : q.profiles = p := congrArg Pipeline.profiles hq
  have hsame : q.schema = d.schema := congrArg Pipeline.schema hq
  rw [hsame]
  exact ⟨table, d.extraction, hschema, htable, hextract, hprofiles, hcontract⟩

/-- A factory of handlers that each register a second one for the same descriptor. -/
def pairFactory : Factory where
  name := "pair"
  create fresh d :=
    let treeSerializer := (Capabilities.empty.addStrategy .tree).addRole .serialize
    .ok {
      handler := ⟨fresh, "first", { treeSerializer with selfRegistering := true }⟩
      register := fun c => c.add ⟨.given 0, "second", treeSerializer⟩ d ["p"] }

/-- An environment whose factories make declared handlers and pairs. -/
def pairEnvironment : Environment where
  factories := FactoryRegistry.builtin.register "pair" pairFactory

/-- A pair, next to a declared handler of both strategies. -/
def pairDescriptors : List Descriptor := [
  { selector := "p", declaredType := some "pair" },
  { selector := "p", declaredType := some declaredType
    parameters := .ofList [("modes", "stream,tree"), ("roles", "serialize")] }]

/-- A handler to hand in, of a descriptor that outranks the others. -/
def lateHandler : Classification :=
  let treeSerializer := (Capabilities.empty.addStrategy .tree).addRole .serialize
  Classification.add {} ⟨.given 1, "late", treeSerializer⟩
    { selector := "p", profile := "html" } ["p", "br"]

/-- The build for the pair with the late handler. -/
def pairOutcome : Outcome Pipeline :=
  pairEnvironment.buildFrom ⟨"html", []⟩ pairDescriptors (some lateHandler)

theorem onlyAdds_pairEnvironment : pairEnvironment.factories.OnlyAdds := by
  apply FactoryRegistry.onlyAdds_builtin.register
  intro fresh d made hmade _ c
  cases hmade
  exact Classification.grows_add ..

theorem Environment.contract_of_pair_build :
    pairEnvironment.factories.OnlyAdds ∧
    ∃ q, pairOutcome.result = .ok q ∧ q.strategy = .tree ∧
      q.classification.entries.map (·.handler.name) = ["first", "second", "p:handler", "late"] ∧
      ∃ x, q.Contract (some lateHandler) x := by
  refine ⟨onlyAdds_pairEnvironment, ?_⟩
  have hbuilt : (pairOutcome.result.toOption.map fun q =>
      (q.strategy, q.classification.entries.map (·.handler.name))) =
        some (.tree, ["first", "second", "p:handler", "late"]) := by
    decide +kernel
  cases hresult : pairOutcome.result with
  | error e => simp [hresult, Except.toOption] at hbuilt
  | ok q =>
    simp only [hresult, Except.toOption, Option.map_some, Option.some.injEq,
      Prod.mk.injEq] at hbuilt
    obtain ⟨_, x, -, -, -, -, hcontract⟩ := contract_of_buildFrom pairEnvironment ⟨"html", []⟩
      pairDescriptors (some lateHandler) q onlyAdds_pairEnvironment hresult
    exact ⟨q, rfl, hbuilt.1, hbuilt.2, x, hcontract⟩

end DeliveryPipeline
