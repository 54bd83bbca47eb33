import DeliveryPipeline.Cache.History
import Mathlib.Data.List.Induction

/-!
# What a request gets after any history

A cache keeps no more of the past than the first success of each base profile. A request for such a
base gets that pipeline, whatever has changed since. Any other request gets what a fresh context
would give it now, so failed builds and published pipelines of other bases leave no trace in it.
-/
namespace DeliveryPipeline.Context

@[simp] theorem run_nil (c : Context) : c.run [] = (c, []) := rfl

theorem run_cons (c : Context) (op : Operation) (rest : List Operation) :
    c.run (op :: rest) = (((c.perform op).1.run rest).1,
      (c.perform op).2 ++ ((c.perform op).1.run rest).2) := rfl

theorem run_append (c : Context) (history : List Operation) (op : Operation) :
    c.run (history ++ [op]) =
      (((c.run history).1.perform op).1,
        (c.run history).2 ++ ((c.run history).1.perform op).2) := by
  induction history generalizing c with
  | nil => simp [run_cons]
  | cons first rest ih => simp [run_cons, ih]

/-- A published base answers from the cache alone. -/
theorem getOrBuild_of_published {c : Context} {p : ProfileSet} {q : Pipeline}
    (h : c.cache.published.get? p.base = some q) (extra : Option Classification) :
    c.getOrBuild p extra = (c, ⟨[], .ok q⟩) := by
  rw [getOrBuild, ProfileSet.cacheKey, PipelineCache.getOrBuild_of_published h]

/-- An unpublished base starts a build, which is published if it succeeds. -/
theorem getOrBuild_of_unpublished {c : Context} {p : ProfileSet}
    (h : c.cache.published.get? p.base = none) (extra : Option Classification) :
    c.getOrBuild p extra =
      ({ c with cache := {
          published :=
            match (c.environment.build p extra).result with
            | .ok q => c.cache.published.set p.base q
            | .error _ => c.cache.published
          builds := c.cache.builds + 1 } },
        c.environment.build p extra) := by
  exact congrArg (fun answered => ({ c with cache := answered.1 }, answered.2))
    (PipelineCache.getOrBuild_of_unpublished h fun _ => c.environment.build p extra)

/-- What a context has kept of a history that began with the environment `env`. -/
structure Keeps (env : Environment) (history : List Operation) (c : Context)
    (answers : List Answer) : Prop where
  environment_eq : c.environment = env.after history
  published_iff : ∀ (base : String) (q : Pipeline), c.cache.published.get? base = some q ↔
    ∃ a ∈ answers, a.profiles.base = base ∧ a.outcome.result = .ok q

variable {env : Environment} {history : List Operation} {c : Context} {answers : List Answer}

theorem Keeps.unpublished (h : Keeps env history c answers) {base : String}
    (hnone : ∀ a ∈ answers, a.profiles.base = base → ∀ q, a.outcome.result ≠ .ok q) :
    c.cache.published.get? base = none := by
  cases hget : c.cache.published.get? base with
  | none => rfl
  | some q =>
    obtain ⟨a, ha, hbase, hresult⟩ := (h.published_iff base q).mp hget
    exact absurd hresult (hnone a ha hbase q)

theorem after_append (env : Environment) (history : List Operation) (op : Operation) :
    env.after (history ++ [op]) =
      match op with
      | .change change => (env.after history).change change
      | .request _ _ => env.after history := by
  rw [Environment.after, List.foldl_append]
  rfl

theorem Keeps.change (h : Keeps env history c answers) (change : Change) :
    Keeps env (history ++ [.change change])
      { c with environment := c.environment.change change } answers := by
  refine ⟨?_, h.published_iff⟩
  rw [after_append, h.environment_eq]

/-- After one more answer, a pipeline was given for a base if it is published there or given now. -/
theorem Keeps.given_iff (h : Keeps env history c answers) (p : ProfileSet)
    (outcome : Outcome Pipeline) (base : String) (q : Pipeline) :
    (∃ a ∈ answers ++ [⟨p, outcome⟩], a.profiles.base = base ∧ a.outcome.result = .ok q) ↔
      c.cache.published.get? base = some q ∨ (p.base = base ∧ outcome.result = .ok q) := by
  simp only [List.mem_append, List.mem_singleton, or_and_right, exists_or, exists_eq_left,
    h.published_iff]

theorem Keeps.request (h : Keeps env history c answers) (p : ProfileSet)
    (extra : Option Classification) :
    Keeps env (history ++ [.request p extra]) (c.getOrBuild p extra).1
      (answers ++ [⟨p, (c.getOrBuild p extra).2⟩]) := by
  cases hget : c.cache.published.get? p.base with
  | some q =>
    rw [getOrBuild_of_published hget]
    refine ⟨by rw [after_append]; exact h.environment_eq, ?_⟩
    intro base q'
    rw [h.given_iff]
    constructor
    · exact Or.inl
    · rintro (hpublished | ⟨rfl, hgiven⟩)
      · exact hpublished
      · cases hgiven
        exact hget
  | none =>
    rw [getOrBuild_of_unpublished hget]
    refine ⟨by rw [after_append]; exact h.environment_eq, ?_⟩
    intro base q'
    rw [h.given_iff]
    cases hresult : (c.environment.build p extra).result with
    | error e => simp
    | ok q =>
      simp only [Dictionary.get?_set]
      by_cases hbase : base = p.base
      · subst hbase
        simp [hget]
      · simp [hbase, Ne.symm hbase]

/-- A fresh context keeps what it should through every history. -/
theorem keeps_run (env : Environment) (history : List Operation) :
    Keeps env history (({ environment := env } : Context).run history).1
      (({ environment := env } : Context).run history).2 := by
  -- from the end, so that the last operation meets what all the others have left
  induction history using List.reverseRecOn with
  | nil =>
    refine ⟨rfl, ?_⟩
    intro base q
    simp
  | append_singleton history op ih =>
    rw [run_append]
    cases op with
    | change change =>
      simpa [perform] using ih.change change
    | request p extra => exact ih.request p extra

/-- After any history, a request for a base that was given a pipeline before gets that pipeline: no
build starts, no listener is called, and nothing changes. Any other request is answered as a fresh
context with the present store, schemas, listeners and factories would answer it. It counts as a
build, leaves the environment as it is, and publishes under its base if it succeeds. Published are
exactly the pipelines that were given. -/
theorem getOrBuild_after_history (env : Environment) (history : List Operation) (p : ProfileSet)
    (extra : Option Classification) :
    let past := ({ environment := env } : Context).run history
    let now := env.after history
    let next := past.1.getOrBuild p extra
    (∀ a ∈ past.2, a.profiles.base = p.base → ∀ q, a.outcome.result = .ok q →
      next = (past.1, ⟨[], .ok q⟩)) ∧
    ((∀ a ∈ past.2, a.profiles.base = p.base → ∀ q, a.outcome.result ≠ .ok q) →
      next.2 = now.build p extra ∧
      next.2 = (({ environment := now } : Context).getOrBuild p extra).2 ∧
      next.1 = { environment := now, cache := {
        published :=
          match (now.build p extra).result with
          | .ok q => past.1.cache.published.set p.base q
          | .error _ => past.1.cache.published
        builds := past.1.cache.builds + 1 } }) ∧
    (∀ base q, past.1.cache.published.get? base = some q ↔
      ∃ a ∈ past.2, a.profiles.base = base ∧ a.outcome.result = .ok q) := by
  intro past now next
  have hkeeps : Keeps env history past.1 past.2 := keeps_run env history
  refine ⟨?_, ?_, hkeeps.published_iff⟩
  · intro a ha hbase q hresult
    exact getOrBuild_of_published ((hkeeps.published_iff p.base q).mpr ⟨a, ha, hbase, hresult⟩)
      extra
  · intro hnone
    have hnow : past.1.environment = now := hkeeps.environment_eq
    have hnext := getOrBuild_of_unpublished (hkeeps.unpublished hnone) extra
    have hfresh := getOrBuild_of_unpublished (c := { environment := now }) (p := p)
      (Dictionary.get?_empty p.base) extra
    rw [hnow] at hnext
    have hanswer : next.2 = now.build p extra := congrArg Prod.snd hnext
    exact ⟨hanswer, hanswer.trans (congrArg Prod.snd hfresh).symm, congrArg Prod.fst hnext⟩

/-- A store that gives the text of a schema. -/
def storedSchema (text : String) : List Descriptor :=
  [{ selector := schemaTarget, parameters := .ofList [(inlineSchemaParameter, text)] }]

/-- An environment whose schema declares an element twice. -/
def brokenEnvironment : Environment where
  store := ⟨storedSchema "<!ELEMENT br EMPTY><!ELEMENT br ANY>"⟩

/-- A request, a mended schema, the same request again, and a store without a schema. -/
def mendingHistory : List Operation := [
  .request ⟨"html", []⟩ none,
  .change (.replaceStore (storedSchema "<!ELEMENT br EMPTY>")),
  .request ⟨"html", []⟩ none,
  .change (.replaceStore [])]

/-- The first request fails, and the second one gives a pipeline with a schema. A further request
for this base gets it, although the schema is gone. A request for another base has no schema. -/
theorem getOrBuild_after_mending :
    let past := ({ environment := brokenEnvironment } : Context).run mendingHistory
    ∃ failed given q, past.2 = [failed, given] ∧ failed.outcome.result.isOk = false ∧
      given.outcome.result = .ok q ∧ q.schema.isSome = true ∧
      (∀ extra, past.1.getOrBuild ⟨"html", ["screen"]⟩ extra = (past.1, ⟨[], .ok q⟩)) ∧
      (past.1.getOrBuild ⟨"wml", []⟩ none).2.result.toOption.map (·.schema.isSome) =
        some false := by
  intro past
  have hanswers : past.2.map (fun a =>
      (a.profiles.base, a.outcome.result.toOption.map (·.schema.isSome))) =
        [("html", none), ("html", some true)] := by
    decide +kernel
  obtain ⟨failed, rest, hpast, hfailed, hrest⟩ := List.map_eq_cons_iff.1 hanswers
  obtain ⟨given, last, hrest, hgiven, hlast⟩ := List.map_eq_cons_iff.1 hrest
  rw [List.map_eq_nil_iff.1 hlast] at hrest
  rw [hrest] at hpast
  obtain ⟨hfailedBase, hfailed⟩ := Prod.mk.inj hfailed
  obtain ⟨hgivenBase, hgiven⟩ := Prod.mk.inj hgiven
  obtain ⟨q, hq, hschema⟩ := Error.map_toOption_eq_some_iff.1 hgiven
  have hnotOk : failed.outcome.result.isOk = false := by
    cases hresult : failed.outcome.result with
    | error e => rfl
    | ok q => simp [hresult, Except.toOption] at hfailed
  refine ⟨failed, given, q, hpast, hnotOk, hq, hschema, fun extra => ?_, ?_⟩
  · have hpublished := (getOrBuild_after_history brokenEnvironment mendingHistory
      ⟨"html", ["screen"]⟩ extra).1
    exact hpublished given (by simp [past, hpast]) hgivenBase q hq
  · have hother := (getOrBuild_after_history brokenEnvironment mendingHistory ⟨"wml", []⟩ none).2.1
    rw [(hother ?_).1]
    · decide +kernel
    · intro a ha hbase
      have hbases : a.profiles.base = "html" := by
        have hmem : a ∈ past.2 := ha
        rw [hpast, List.mem_cons, List.mem_singleton] at hmem
        rcases hmem with rfl | rfl
        · exact hfailedBase
        · exact hgivenBase
      rw [hbases] at hbase
      exact absurd hbase (by decide)

end DeliveryPipeline.Context
