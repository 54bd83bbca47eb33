import DeliveryPipeline.Proofs.Cache.History
import DeliveryPipeline.Proofs.Cache.Steps
import Mathlib.Logic.Relation

/-!
# Requests in turn

A context answers one request after another, and the steps of concurrent requests do the same where
each request runs from its start to its return before the next one begins. A request that steps
alone finds what is published, or takes a lock that nobody holds, builds, and publishes what it can.
So every history of a context is a course of events that the step model has too.
-/
namespace DeliveryPipeline

namespace Concurrent.State

variable {κ β ε : Type} [DecidableEq κ] {s t u : State κ β ε} {i : Nat} {r : Request κ β ε}
  {outcome : Except ε β}

/-- The request with the number `i` leads from one state to another by steps of its own, where its
build gives `outcome`. -/
def Alone (i : Nat) (outcome : Except ε β) : State κ β ε → State κ β ε → Prop :=
  Relation.ReflTransGen fun s t => s.advance i outcome = some t

namespace Alone

/-- A request that steps alone comes to only one state in which it has returned. -/
theorem eq_of_stopped (ht : Alone i outcome s t) (hu : Alone i outcome s u)
    (htstopped : t.advance i outcome = none) (hustopped : u.advance i outcome = none) : t = u := by
  have hstays {a b : State κ β ε} (h : Alone i outcome a b)
      (hstopped : a.advance i outcome = none) : a = b := by
    rcases Relation.ReflTransGen.cases_head h with rfl | ⟨c, hc, -⟩
    · rfl
    · rw [hstopped] at hc
      cases hc
  have hunique : Relator.RightUnique fun a b : State κ β ε => a.advance i outcome = some b := by
    intro a b c hb hc
    exact Option.some.inj (hb.symm.trans hc)
  rcases Relation.ReflTransGen.total_of_right_unique hunique ht hu with h | h
  · exact hstays h htstopped
  · exact (hstays h hustopped).symm

theorem exists_follow (h : Alone i outcome s t) :
    ∃ n, s.follow (List.replicate n (i, outcome)) = some t := by
  induction h using Relation.ReflTransGen.head_induction_on with
  | refl => exact ⟨0, rfl⟩
  | head hstep _ ih =>
    obtain ⟨n, hfollow⟩ := ih
    refine ⟨n + 1, ?_⟩
    rw [List.replicate_succ, follow, hstep]
    exact hfollow

end Alone

theorem follow_append (s : State κ β ε) (first rest : List (Nat × Except ε β)) :
    s.follow (first ++ rest) = (s.follow first).bind fun t => t.follow rest := by
  induction first generalizing s with
  | nil => rfl
  | cons choice first ih => simp only [List.cons_append, follow, Option.bind_assoc, ih]

omit [DecidableEq κ] in
theorem getElem?_of_set (hi : s.requests[i]? = some r) {r' : Request κ β ε}
    (hset : t.requests = s.requests.set i r') : t.requests[i]? = some r' := by
  rw [hset]
  exact (getElem?_set_eq_some hi _ _).2 (.inl ⟨rfl, rfl⟩)

omit [DecidableEq κ] in
theorem getElem?_move (hi : s.requests[i]? = some r) (r' : Request κ β ε) (stage : Stage β ε) :
    (s.move i r' stage).requests[i]? = some { r' with stage } :=
  getElem?_of_set hi rfl

omit [DecidableEq κ] in
/-- Where a request has stood before it moves on does not matter. -/
theorem move_move (s : State κ β ε) (i : Nat) (r : Request κ β ε) (first last : Stage β ε) :
    (s.move i r first).move i { r with stage := first } last = s.move i r last := by
  simp [move]

omit [DecidableEq κ] in
theorem not_isHeld_of_quiet (hquiet : ∀ r ∈ s.requests, r.stage.isInside = false) (lock : Nat) :
    s.isHeld lock = false := by
  rw [← Bool.not_eq_true, isHeld_iff]
  rintro ⟨j, q, hj, hheld⟩
  have houtside := hquiet q (List.mem_of_getElem? hj)
  cases hstage : q.stage <;> simp_all [Stage.isInside]

omit [DecidableEq κ] in
/-- A request that waits for a lock does not hold any. -/
theorem isHeld_move_queued {lock : Nat} (hfree : s.isHeld lock = false) (wanted : Nat) :
    (s.move i r (.queued wanted)).isHeld lock = false := by
  rw [isHeld, List.any_eq_false] at hfree ⊢
  intro q hq
  rcases List.mem_or_eq_of_mem_set hq with hq | rfl
  · exact hfree q hq
  · simp

/-- A request that finds nothing comes to wait for a lock that nobody holds. -/
theorem exists_alone_queued (hquiet : ∀ r ∈ s.requests, r.stage.isInside = false)
    (hi : s.requests[i]? = some r) (hstage : r.stage = .arriving)
    (habsent : s.published r.key = none) (outcome : Except ε β) :
    ∃ lock t, Alone i outcome s t ∧ t.isHeld lock = false ∧ t.published = s.published ∧
      t.builds = s.builds ∧ t.requests = s.requests.set i { r with stage := .queued lock } := by
  have hmiss : s.advance i outcome = some (s.move i r .seeking) := by
    simp [advance, hi, hstage, habsent]
  have hseeking := getElem?_move hi r .seeking
  cases hlock : s.locks r.key with
  | some lock =>
    have hfetch : (s.move i r .seeking).advance i outcome = some (s.move i r (.queued lock)) := by
      simp [advance, hseeking, hlock, move_move]
    exact ⟨lock, _, .head hmiss (.single hfetch),
      isHeld_move_queued (not_isHeld_of_quiet hquiet lock) lock, rfl, rfl, rfl⟩
  | none =>
    let t := { s.move i r (.queued s.nextLock) with
      locks := bindKey s.locks r.key (some s.nextLock), nextLock := s.nextLock + 1 }
    have hcreate : (s.move i r .seeking).advance i outcome = some t := by
      simp [advance, hseeking, hlock, move_move, t]
    exact ⟨s.nextLock, t, .head hmiss (.single hcreate),
      isHeld_move_queued (not_isHeld_of_quiet hquiet _) _, rfl, rfl, rfl⟩

/-- A request that waits for a free lock, and finds nothing again, starts a build. -/
theorem exists_alone_building {lock : Nat} (hi : s.requests[i]? = some r)
    (hstage : r.stage = .queued lock) (hfree : s.isHeld lock = false)
    (habsent : s.published r.key = none) (outcome : Except ε β) :
    ∃ t, Alone i outcome s t ∧ t.published = s.published ∧ t.builds = s.builds + 1 ∧
      t.requests = s.requests.set i { r with stage := .building lock } := by
  have hacquire : s.advance i outcome = some (s.move i r (.rechecking lock)) := by
    simp [advance, hi, hstage, hfree]
  have hmiss : (s.move i r (.rechecking lock)).advance i outcome =
      some (s.move i r (.preparing lock)) := by
    simp [advance, getElem?_move hi, habsent, move_move]
  have hbegin : (s.move i r (.preparing lock)).advance i outcome =
      some { s.move i r (.building lock) with builds := s.builds + 1 } := by
    simp [advance, getElem?_move hi, move_move]
  exact ⟨_, .head hacquire (.head hmiss (.single hbegin)), rfl, rfl, rfl⟩

/-- What is published when a build for a key has given `outcome`. -/
def publishedAfter (s : State κ β ε) (key : κ) : Except ε β → κ → Option β
  | .ok value => bindKey s.published key (some value)
  | .error _ => s.published

theorem publishedAfter_congr (h : t.published = s.published) (key : κ) (outcome : Except ε β) :
    t.publishedAfter key outcome = s.publishedAfter key outcome := by
  cases outcome with
  | error e => exact h
  | ok value => exact congrArg (bindKey · key (some value)) h

/-- A request whose build ends publishes what it has given, and returns with it. -/
theorem exists_alone_finished {lock : Nat} (hi : s.requests[i]? = some r)
    (hstage : r.stage = .building lock) (outcome : Except ε β) :
    ∃ t, Alone i outcome s t ∧ t.published = s.publishedAfter r.key outcome ∧
      t.builds = s.builds ∧ t.requests = s.requests.set i
        { r with stage := .finished outcome, outcomes := r.outcomes ++ [outcome] } := by
  let q := { r with outcomes := r.outcomes ++ [outcome] }
  have hrelease {t : State κ β ε}
      (ht : t.requests[i]? = some { q with stage := .leaving lock outcome }) :
      t.advance i outcome = some (t.move i q (.finished outcome)) := by
    simp only [advance, ht]
    rfl
  cases outcome with
  | error e =>
    have hfail : s.advance i (.error e) = some (s.move i q (.leaving lock (.error e))) := by
      simp [advance, hi, hstage, q]
    exact ⟨_, .head hfail (.single (hrelease (getElem?_move hi q _))), rfl, rfl, by simp [move, q]⟩
  | ok value =>
    let s₁ := s.move i q (.publishing lock value)
    have hsucceed : s.advance i (.ok value) = some s₁ := by
      simp [advance, hi, hstage, q, s₁]
    have hpublishing := getElem?_move hi q (.publishing lock value)
    let s₂ := { s₁.move i q (.retiring lock value) with
      published := bindKey s.published r.key (some value) }
    have hpublish : s₁.advance i (.ok value) = some s₂ := by
      simp only [advance, hpublishing, s₁]
      rfl
    have hretiring : s₂.requests[i]? = some { q with stage := .retiring lock value } :=
      getElem?_move hpublishing q _
    let s₃ := { s₂.move i q (.leaving lock (.ok value)) with
      locks := bindKey s.locks r.key none }
    have hretire : s₂.advance i (.ok value) = some s₃ := by
      simp only [advance, hretiring]
      rfl
    have hleaving : s₃.requests[i]? = some { q with stage := .leaving lock (.ok value) } :=
      getElem?_move hretiring q _
    refine ⟨_, .head hsucceed (.head hpublish (.head hretire (.single (hrelease hleaving)))), rfl,
      rfl, ?_⟩
    simp [s₁, s₂, s₃, move, q]

/-- A request that finds nothing builds and returns, if it steps alone while no other request is
under way. -/
theorem exists_alone_of_absent (hquiet : ∀ r ∈ s.requests, r.stage.isInside = false)
    (hi : s.requests[i]? = some r) (hstage : r.stage = .arriving)
    (habsent : s.published r.key = none) (outcome : Except ε β) :
    ∃ t, Alone i outcome s t ∧ t.published = s.publishedAfter r.key outcome ∧
      t.builds = s.builds + 1 ∧ t.requests = s.requests.set i
        { r with stage := .finished outcome, outcomes := r.outcomes ++ [outcome] } := by
  obtain ⟨lock, s₁, hqueued, hfree, hpublished₁, hbuilds₁, hrequests₁⟩ :=
    exists_alone_queued hquiet hi hstage habsent outcome
  have hi₁ := getElem?_of_set hi hrequests₁
  obtain ⟨s₂, hbuilding, hpublished₂, hbuilds₂, hrequests₂⟩ :=
    exists_alone_building hi₁ rfl hfree (by rw [hpublished₁, habsent]) outcome
  have hi₂ := getElem?_of_set hi₁ hrequests₂
  obtain ⟨s₃, hfinished, hpublished₃, hbuilds₃, hrequests₃⟩ :=
    exists_alone_finished hi₂ rfl outcome
  refine ⟨s₃, hqueued.trans (hbuilding.trans hfinished), ?_, ?_, ?_⟩
  · rw [hpublished₃, publishedAfter_congr (hpublished₂.trans hpublished₁)]
  · rw [hbuilds₃, hbuilds₂, hbuilds₁]
  · rw [hrequests₃, hrequests₂, hrequests₁, List.set_set, List.set_set]

/-- A state and a cache hold the same values and have started the same number of builds. -/
structure Mirrors (s : State String Pipeline Error) (c : PipelineCache) : Prop where
  published : ∀ key, s.published key = c.published.get? key
  builds : s.builds = c.builds

/-- A request that finds a value returns with it in one step. -/
theorem advance_of_present {value : β} (hi : s.requests[i]? = some r) (hstage : r.stage = .arriving)
    (hpresent : s.published r.key = some value) (outcome : Except ε β) :
    s.advance i outcome = some (s.move i r (.finished (.ok value))) := by
  simp [advance, hi, hstage, hpresent]

theorem advance_of_finished {result : Except ε β} (hi : s.requests[i]? = some r)
    (hstage : r.stage = .finished result) (outcome : Except ε β) : s.advance i outcome = none := by
  simp [advance, hi, hstage]

theorem Alone.stops_iff {result : Except ε β} (halone : Alone i outcome s t)
    (hi : t.requests[i]? = some r) (hstage : r.stage = .finished result) (u : State κ β ε) :
    Alone i outcome s u ∧ u.advance i outcome = none ↔ u = t := by
  have hstopped := advance_of_finished hi hstage outcome
  constructor
  · rintro ⟨hu, hustopped⟩
    exact hu.eq_of_stopped halone hustopped hstopped
  · rintro rfl
    exact ⟨halone, hstopped⟩

/-- A request that steps alone, while no other one is under way, stops in one state only, where it
has returned with what the cache answers, and all is published that the cache publishes. -/
theorem Mirrors.getOrBuild {s : State String Pipeline Error} {c : PipelineCache}
    {r : Request String Pipeline Error} (hs : s.Mirrors c)
    (hquiet : ∀ r ∈ s.requests, r.stage.isInside = false) (hi : s.requests[i]? = some r)
    (hstage : r.stage = .arriving) (build : Unit → Outcome Pipeline) :
    let next := c.getOrBuild r.key build
    ∃ t r', (∀ u, Alone i (build ()).result s u ∧ u.advance i (build ()).result = none ↔ u = t) ∧
      t.Mirrors next.1 ∧ t.requests = s.requests.set i r' ∧ r'.stage = .finished next.2.result := by
  intro next
  have hget := hs.published r.key
  cases hpublished : s.published r.key with
  | some p =>
    rw [hpublished] at hget
    have hnext : next = (c, ⟨[], .ok p⟩) := PipelineCache.getOrBuild_of_published hget.symm build
    rw [hnext]
    have halone : Alone i (build ()).result s _ :=
      .single (advance_of_present hi hstage hpublished (build ()).result)
    exact ⟨_, _, halone.stops_iff (getElem?_move hi r _) rfl, ⟨hs.published, hs.builds⟩, rfl, rfl⟩
  | none =>
    rw [hpublished] at hget
    have hnext := PipelineCache.getOrBuild_of_unpublished hget.symm build
    obtain ⟨t, halone, htpublished, htbuilds, hrequests⟩ :=
      exists_alone_of_absent hquiet hi hstage hpublished (build ()).result
    have hmirrors : t.Mirrors next.1 := by
      simp only [next, hnext]
      refine ⟨fun key => ?_, by rw [htbuilds, hs.builds]⟩
      rw [htpublished]
      cases (build ()).result with
      | error e => exact hs.published key
      | ok p => simp only [publishedAfter, bindKey, Dictionary.get?_set, hs.published]
    refine ⟨t, _, halone.stops_iff (getElem?_of_set hi hrequests) rfl, hmirrors, hrequests, ?_⟩
    simp only [next, hnext]

theorem mirrors_start (keys : List String) : (start keys).Mirrors {} :=
  ⟨fun key => (Dictionary.get?_empty key).symm, rfl⟩

/-- A request that has its turn, between those that have returned and those that have not begun. -/
theorem Mirrors.exists_follow_turn {s : State String Pipeline Error} {c : PipelineCache}
    {returned later : List (Request String Pipeline Error)} {key : String} (hs : s.Mirrors c)
    (hrequests : s.requests = returned ++ { key } :: later)
    (houtside : ∀ r ∈ returned ++ later, r.stage.isInside = false)
    (build : Unit → Outcome Pipeline) :
    let next := c.getOrBuild key build
    ∃ n t r', s.follow (List.replicate n (returned.length, (build ()).result)) = some t ∧
      t.Mirrors next.1 ∧ t.requests = returned ++ r' :: later ∧
      r'.stage = .finished next.2.result := by
  intro next
  have hi : s.requests[returned.length]? = some { key } := by simp [hrequests]
  have hquiet : ∀ r ∈ s.requests, r.stage.isInside = false := by
    rw [hrequests]
    rw [List.forall_mem_append] at houtside ⊢
    exact ⟨houtside.1, List.forall_mem_cons.2 ⟨rfl, houtside.2⟩⟩
  obtain ⟨t, r', hstops, hmirrors, hset, hstage⟩ := hs.getOrBuild hquiet hi rfl build
  obtain ⟨n, hfollow⟩ := ((hstops t).2 rfl).1.exists_follow
  exact ⟨n, t, r', hfollow, hmirrors, by simp [hset, hrequests], hstage⟩

end Concurrent.State

open Concurrent Concurrent.State

/-- The requests of some answers, before they begin. -/
def Answer.requests (answers : List Answer) : List (Request String Pipeline Error) :=
  answers.map fun a => { key := a.profiles.cacheKey }

theorem Answer.isInside_of_mem_requests {answers : List Answer}
    {r : Request String Pipeline Error} (h : r ∈ Answer.requests answers) :
    r.stage.isInside = false := by
  obtain ⟨a, -, rfl⟩ := List.mem_map.1 h
  rfl

namespace Context

/-- A context goes on with a history as its requests do in turn, after others that have returned. -/
theorem exists_follow_run (c : Context) (history : List Operation)
    {s : State String Pipeline Error} (hs : s.Mirrors c.cache)
    {returned : List (Request String Pipeline Error)}
    (hreturned : ∀ r ∈ returned, r.stage.isInside = false)
    (hrequests : s.requests = returned ++ Answer.requests (c.run history).2) :
    ∃ schedule t, s.follow schedule = some t ∧
      (∀ choice ∈ schedule, returned.length ≤ choice.1) ∧
      (schedule.map Prod.fst).Pairwise (· ≤ ·) ∧ t.Mirrors (c.run history).1.cache ∧
      ∃ more, t.requests = returned ++ more ∧
        more.map Request.stage = (c.run history).2.map fun a => .finished a.outcome.result := by
  induction history generalizing c s returned with
  | nil =>
    exact ⟨[], s, rfl, by simp, by simp, hs, [], by simpa [Answer.requests] using hrequests, rfl⟩
  | cons op rest ih =>
    cases op with
    | change change =>
      exact ih { c with environment := c.environment.change change } hs hreturned hrequests
    | request p extra =>
      let c' := (c.getOrBuild p extra).1
      let later := Answer.requests (c'.run rest).2
      have hrequests : s.requests = returned ++ { key := p.cacheKey } :: later := hrequests
      have hlater : ∀ r ∈ returned ++ later, r.stage.isInside = false :=
        List.forall_mem_append.2 ⟨hreturned, fun r => Answer.isInside_of_mem_requests⟩
      obtain ⟨n, t, r', hfirst, hmirrors, hset, hstage⟩ :=
        hs.exists_follow_turn hrequests hlater fun _ => c.environment.build p extra
      have hreturned' : ∀ r ∈ returned ++ [r'], r.stage.isInside = false := by
        refine List.forall_mem_append.2 ⟨hreturned, List.forall_mem_singleton.2 ?_⟩
        rw [hstage]
        rfl
      obtain ⟨schedule, u, hfollow, hbound, hinTurn, hmirrors, more, hmore, hstages⟩ :=
        ih c' hmirrors hreturned' (by rw [hset, List.append_assoc]; rfl)
      rw [List.length_append, List.length_singleton] at hbound
      let turn := List.replicate n (returned.length, (c.environment.build p extra).result)
      refine ⟨turn ++ schedule, u, ?_, ?_, ?_, hmirrors, r' :: more, ?_, ?_⟩
      · rw [follow_append, hfirst]
        exact hfollow
      · refine List.forall_mem_append.2 ⟨?_, fun choice h => Nat.le_of_succ_le (hbound choice h)⟩
        intro choice h
        have hchoice := List.eq_of_mem_replicate h
        exact Nat.le_of_eq (congrArg Prod.fst hchoice).symm
      · rw [List.map_append, List.map_replicate, List.pairwise_append]
        refine ⟨List.pairwise_replicate.2 (.inr (Nat.le_refl _)), hinTurn, ?_⟩
        intro a ha b hb
        rw [List.eq_of_mem_replicate ha]
        obtain ⟨choice, hchoice, rfl⟩ := List.mem_map.1 hb
        exact Nat.le_of_succ_le (hbound choice hchoice)
      · rw [hmore, List.append_assoc]
        rfl
      · rw [List.map_cons, hstage, hstages]
        rfl

/-- Every history of a context is a course of events in which the requests run in turn. Each request
returns with the answer, and what is published and counted at the end is the same. -/
theorem run_in_turn (env : Environment) (history : List Operation) :
    let past := ({ environment := env } : Context).run history
    ∃ schedule t, (start (past.2.map fun a => a.profiles.cacheKey)).follow schedule = some t ∧
      (schedule.map Prod.fst).Pairwise (· ≤ ·) ∧ t.Mirrors past.1.cache ∧
      t.requests.map Request.stage = past.2.map fun a => .finished a.outcome.result := by
  intro past
  have hnone : ∀ r ∈ ([] : List (Request String Pipeline Error)), r.stage.isInside = false := by
    simp
  obtain ⟨schedule, t, hfollow, -, hinTurn, hmirrors, more, hrequests, hstages⟩ :=
    exists_follow_run { environment := env } history
      (mirrors_start (past.2.map fun a => a.profiles.cacheKey)) hnone
      (by simp [start, past, Answer.requests, Function.comp_def])
  refine ⟨schedule, t, hfollow, hinTurn, hmirrors, ?_⟩
  rw [hrequests]
  exact hstages

end Context

end DeliveryPipeline
