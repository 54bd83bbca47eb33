import DeliveryPipeline.Proofs.Cache.Publication
import Mathlib.Algebra.BigOperators.Group.Finset.Basic
import Mathlib.Algebra.BigOperators.Group.Finset.Piecewise

/-!
# The tally of builds

Each request begins one build at most, and how its build ended decides what it returns. So the
builds of the cache are what its requests have begun, a build that succeeded is the value of its
key, and a build that failed is the error of its request. Once no request is on its way, the builds
are the published keys and the returned errors taken together.
-/
namespace DeliveryPipeline.Concurrent

/-- Whether an error has been returned. -/
@[simp] def Stage.isRefused {β ε : Type} : Stage β ε → Bool
  | finished (.error _) => true
  | _ => false

namespace Request

variable {κ β ε : Type} {r : Request κ β ε}

/-- How many builds the request has begun. -/
def begun (r : Request κ β ε) : Nat :=
  r.outcomes.length + if r.stage.isBuilding = true then 1 else 0

/-- How many builds of the request have failed. -/
def failures (r : Request κ β ε) : Nat :=
  r.outcomes.countP fun outcome => !outcome.isOk

theorem successes_add_failures (r : Request κ β ε) :
    r.successes + r.failures = r.outcomes.length := by
  simpa [successes, failures] using (r.outcomes.length_eq_countP_add_countP Except.isOk).symm

/-- What the builds of a request have given by the stage where it stands. A result that is no
outcome of its own build is a value that it has found. -/
def Accounted (r : Request κ β ε) : Prop :=
  match r.stage with
  | .publishing _ value | .retiring _ value => r.outcomes = [.ok value]
  | .leaving _ result | .finished result =>
    r.outcomes = [result] ∨ (r.outcomes = [] ∧ ∃ value, result = .ok value)
  | _ => r.outcomes = []

namespace Accounted

theorem begun_le_one (h : r.Accounted) : r.begun ≤ 1 := by
  unfold begun
  cases hstage : r.stage with
  | leaving lock result | finished result =>
    rcases (by simpa [Accounted, hstage] using h : _ ∨ _) with hown | ⟨hnone, -⟩
    · simp [hown]
    · simp [hnone]
  | _ => simp_all [Accounted]

/-- An error that is returned is the outcome of the one build of the request. -/
theorem of_error (h : r.Accounted) {e : ε} (hstage : r.stage = .finished (.error e)) :
    r.outcomes = [.error e] := by
  simpa [Accounted, hstage] using h

/-- A value that is returned is the outcome of the one build of the request, or there was none. -/
theorem of_value (h : r.Accounted) {value : β} (hstage : r.stage = .finished (.ok value)) :
    r.outcomes = [.ok value] ∨ r.outcomes = [] := by
  simpa [Accounted, hstage] using h

/-- A request that is not on its way has failed with a build exactly if it has returned an error. -/
theorem failures_of_outside (h : r.Accounted) (houtside : r.stage.isInside = false) :
    r.failures = if r.stage.isRefused = true then 1 else 0 := by
  cases hstage : r.stage with
  | arriving => simp_all [Accounted, failures]
  | finished result =>
    cases result with
    | error e => simp [failures, h.of_error hstage, Except.isOk, Except.toBool]
    | ok value =>
      rcases h.of_value hstage with hown | hnone
      · simp [failures, hown, Except.isOk, Except.toBool]
      · simp [failures, hnone]
  | _ => simp [hstage, Stage.isInside] at houtside

end Accounted

end Request

namespace State

variable {κ β ε : Type} [DecidableEq κ] {s t : State κ β ε} {i : Nat} {r : Request κ β ε}

/-- A step keeps the account of the request that moves, and counts a build when one begins. -/
theorem exists_accounted (hr : r.Accounted) (h : StepOf s i r t) :
    ∃ r', t.requests = s.requests.set i r' ∧ r'.Accounted ∧
      t.builds + r.begun = s.builds + r'.begun := by
  cases h with
  | begin stage =>
    refine ⟨_, rfl, by simp_all [Request.Accounted], ?_⟩
    simp [Request.begun, stage, Nat.add_assoc, Nat.add_comm 1]
  | _ => exact ⟨_, rfl, by simp_all [Request.Accounted], by simp_all [Request.begun]⟩

omit [DecidableEq κ] in
/-- Every request is accounted for, and the builds are what the requests have begun. -/
structure Tallied (s : State κ β ε) : Prop where
  accounted : ∀ r ∈ s.requests, r.Accounted
  builds : s.builds = (s.requests.map Request.begun).sum

theorem Tallied.step (hs : s.Tallied) (hi : s.requests[i]? = some r) (h : StepOf s i r t) :
    t.Tallied := by
  obtain ⟨r', hset, hr', hbegun⟩ :=
    exists_accounted (hs.accounted r (List.mem_of_getElem? hi)) h
  constructor
  · intro q hq
    rw [hset] at hq
    rcases List.mem_or_eq_of_mem_set hq with hq | rfl
    · exact hs.accounted q hq
    · exact hr'
  · have hsum := sum_map_set Request.begun hi r'
    have hold := hs.builds
    rw [hset]
    omega

theorem Reachable.tallied {keys : List κ} (h : Reachable keys s) : s.Tallied := by
  induction h with
  | start =>
    constructor
    · intro r hr
      obtain ⟨key, -, rfl⟩ := List.mem_map.mp hr
      rfl
    · simp [State.start, Request.begun, Function.comp_def]
  | step _ hstep ih =>
    obtain ⟨i, r, hi, hr⟩ := exists_stepOf hstep
    exact ih.step hi hr

/-- The keys under which a value is published, of those that were asked for. -/
def publishedKeys (s : State κ β ε) : Finset κ :=
  (s.requests.map Request.key).toFinset.filter fun key => (s.published key).isSome = true

omit [DecidableEq κ] in
def failures (s : State κ β ε) : Nat :=
  (s.requests.map Request.failures).sum

omit [DecidableEq κ] in
/-- How many requests have returned an error. -/
def refusals (s : State κ β ε) : Nat :=
  s.requests.countP fun r => r.stage.isRefused

/-- Nothing is published under a key that no request has. -/
theorem Consistent.mem_publishedKeys (hs : s.Consistent) {key : κ} :
    key ∈ s.publishedKeys ↔ s.published key ≠ none := by
  simp only [publishedKeys, Finset.mem_filter, List.mem_toFinset, ← Option.isSome_iff_ne_none]
  refine ⟨And.right, fun hsome => ⟨?_, hsome⟩⟩
  obtain ⟨value, hvalue⟩ := Option.isSome_iff_exists.mp hsome
  have hbalanced := hs.balanced key
  by_contra hnot
  have hzero : s.successes key = 0 := by
    simp only [successes, List.sum_eq_zero_iff_forall_eq_nat, List.mem_map]
    rintro n ⟨r, hr, rfl⟩
    exact if_neg fun hkey => hnot (List.mem_map.mpr ⟨r, hr, hkey⟩)
  simp [hzero, hvalue] at hbalanced
  omega

omit [DecidableEq κ] in
/-- A sum over all requests, taken key by key. -/
theorem sum_map_eq_sum_keys [DecidableEq κ] (f : Request κ β ε → Nat)
    {rs : List (Request κ β ε)} {keys : Finset κ} (hkeys : ∀ r ∈ rs, r.key ∈ keys) :
    (rs.map f).sum = ∑ key ∈ keys, (rs.map fun r => if r.key = key then f r else 0).sum := by
  induction rs with
  | nil => simp
  | cons head rest ih =>
    have hhead : head.key ∈ keys := hkeys head (by simp)
    have hrest := ih fun r hr => hkeys r (List.mem_cons_of_mem head hr)
    simp only [List.map_cons, List.sum_cons, Finset.sum_add_distrib, Finset.sum_ite_eq,
      if_pos hhead]
    omega

/-- When no request is on its way, the builds that have succeeded are the published keys. -/
theorem Consistent.sum_successes_of_quiet (hs : s.Consistent)
    (hquiet : ∀ r ∈ s.requests, r.stage.isInside = false) :
    (s.requests.map Request.successes).sum = s.publishedKeys.card := by
  have hpublished (key : κ) : s.successes key = (s.published key).toList.length := by
    have hpending : (s.requests.map fun r => if r.key = key then r.pending else 0).sum = 0 := by
      simp only [List.sum_eq_zero_iff_forall_eq_nat, List.mem_map]
      rintro n ⟨r, hr, rfl⟩
      have hinside := hquiet r hr
      cases hstage : r.stage <;> simp_all [Stage.isInside]
    have hbalanced := hs.balanced key
    omega
  have hkeys : ∀ r ∈ s.requests, r.key ∈ (s.requests.map Request.key).toFinset := fun r hr =>
    List.mem_toFinset.mpr (List.mem_map_of_mem hr)
  rw [sum_map_eq_sum_keys Request.successes hkeys, publishedKeys, Finset.card_filter]
  refine Finset.sum_congr rfl fun key _ => ?_
  rw [← successes, hpublished]
  cases s.published key <;> rfl

omit [DecidableEq κ] in
/-- When no request is on its way, the builds that have failed are the errors that were returned. -/
theorem Tallied.failures_of_quiet (hs : s.Tallied)
    (hquiet : ∀ r ∈ s.requests, r.stage.isInside = false) : s.failures = s.refusals := by
  have heach (r : Request κ β ε) (hr : r ∈ s.requests) :
      r.failures = if r.stage.isRefused = true then 1 else 0 :=
    (hs.accounted r hr).failures_of_outside (hquiet r hr)
  rw [failures, refusals, List.map_congr_left heach]
  clear hs hquiet heach
  induction s.requests with
  | nil => rfl
  | cons head rest ih => rw [List.map_cons, List.sum_cons, ih, List.countP_cons, Nat.add_comm]

/-- When no request is on its way, every build has succeeded or failed. -/
theorem Tallied.builds_of_quiet (hs : s.Tallied) (hconsistent : s.Consistent)
    (hquiet : ∀ r ∈ s.requests, r.stage.isInside = false) :
    s.builds = s.publishedKeys.card + s.failures := by
  have hended (r : Request κ β ε) (hr : r ∈ s.requests) : r.begun = r.successes + r.failures := by
    have hinside := hquiet r hr
    rw [r.successes_add_failures, Request.begun]
    cases hstage : r.stage <;> simp_all [Stage.isInside]
  rw [hs.builds, List.map_congr_left hended, List.sum_map_add,
    hconsistent.sum_successes_of_quiet hquiet, failures]

/-- A step that changes what is published is taken by a request whose build has succeeded. -/
theorem published_of_stepOf {q : Request κ β ε} (hi : s.requests[i]? = some r) (hr : r.Accounted)
    (h : StepOf s i r t) (hq : t.requests[i]? = some q)
    (hnone : ∀ value, .ok value ∉ q.outcomes) : t.published = s.published := by
  cases h with
  | @publish lock value stage =>
    have hmoved : q = { r with stage := .retiring lock value } := by
      rcases (getElem?_set_eq_some hi q _).mp hq with ⟨-, hq⟩ | ⟨hne, -⟩
      · exact hq
      · exact absurd rfl hne
    have hbuilt : r.outcomes = [.ok value] := by simpa [Request.Accounted, stage] using hr
    refine absurd ?_ (hnone value)
    simp [hmoved, hbuilt]
  | _ => rfl

/-- In every course of events, no step of a request without a successful build changes what is
published. A request begins one build at most, an error that it returns is what its one build has
given, and it has begun none if it returns a value that it has not built. When no request is on its
way, the builds are the published keys and the failed builds, and these are the returned errors. -/
theorem Reachable.builds_tally {keys : List κ} (h : Reachable keys s) :
    (∀ i outcome t q, s.advance i outcome = some t → t.requests[i]? = some q →
      (∀ value, .ok value ∉ q.outcomes) → t.published = s.published) ∧
    (∀ r ∈ s.requests, r.begun ≤ 1 ∧
      (∀ e, r.stage = .finished (.error e) → r.begun = 1 ∧ r.outcomes = [.error e]) ∧
      (∀ value, r.stage = .finished (.ok value) → .ok value ∉ r.outcomes → r.begun = 0)) ∧
    ((∀ r ∈ s.requests, r.stage.isInside = false) →
      (∀ key, key ∈ s.publishedKeys ↔ s.published key ≠ none) ∧
      s.builds = s.publishedKeys.card + s.failures ∧ s.failures = s.refusals) := by
  have hs := h.tallied
  refine ⟨?_, ?_, ?_⟩
  · intro i outcome t q hstep hq hnone
    obtain ⟨r, hi, hr⟩ := stepOf_of_advance hstep
    exact published_of_stepOf hi (hs.accounted r (List.mem_of_getElem? hi)) hr hq hnone
  · intro r hr
    have haccounted := hs.accounted r hr
    refine ⟨haccounted.begun_le_one, ?_, ?_⟩
    · intro e hstage
      have hfailed := haccounted.of_error hstage
      exact ⟨by simp [Request.begun, hfailed, hstage], hfailed⟩
    · intro value hstage hnot
      have hnone : r.outcomes = [] := by
        refine (haccounted.of_value hstage).resolve_left fun hbuilt => hnot ?_
        simp [hbuilt]
      simp [Request.begun, hnone, hstage]
  · intro hquiet
    exact ⟨fun key => h.consistent.mem_publishedKeys, hs.builds_of_quiet h.consistent hquiet,
      hs.failures_of_quiet hquiet⟩

/-- Two requests of one key wait for each other's build, of which the first is about to fail. -/
def failingSchedule : List (Nat × Except String String) :=
  [0, 1, 0, 1, 0, 0, 0].map (·, .error "")

/-- The first build fails, and the request that has waited builds again. Another key fails as well,
and the last request finds the value. -/
def mixedSchedule : List (Nat × Except String String) :=
  failingSchedule ++ [(0, .error "refused")] ++ [0, 1, 1, 1].map (·, .error "") ++
  [(1, .ok "built")] ++ [1, 1, 1, 3, 2, 2, 2, 2, 2].map (·, .error "") ++
  [(2, .error "missing"), (2, .error "")]

theorem mixed_builds_tally : ∃ s u t : State Nat String String,
    Reachable [7, 7, 3, 7] u ∧ u.advance 0 (.error "refused") = some t ∧
    t.published = u.published ∧
    Reachable [7, 7, 3, 7] s ∧ (∀ r ∈ s.requests, r.begun ≤ 1) ∧
    (∀ r ∈ s.requests, r.stage.isInside = false) ∧ s.builds = 3 ∧
    s.builds = s.publishedKeys.card + s.failures ∧ s.failures = s.refusals ∧ s.refusals = 2 := by
  have hu : Reachable [7, 7, 3, 7]
      (((start [7, 7, 3, 7]).follow failingSchedule).get (by decide)) :=
    reachable_of_follow .start (Option.some_get _).symm
  have hs : Reachable [7, 7, 3, 7] (((start [7, 7, 3, 7]).follow mixedSchedule).get (by decide)) :=
    reachable_of_follow .start (Option.some_get _).symm
  have hquiet : ∀ r ∈ (((start [7, 7, 3, 7]).follow mixedSchedule).get (by decide)).requests,
      r.stage.isInside = false := by decide
  have htally := hs.builds_tally.2.2 hquiet
  exact ⟨_, _, _, hu, rfl, hu.builds_tally.1 0 (.error "refused") _ _ rfl rfl (by simp), hs,
    fun r hr => (hs.builds_tally.2.1 r hr).1, hquiet, by decide, htally.2.1, htally.2.2, by decide⟩

end State

end DeliveryPipeline.Concurrent
