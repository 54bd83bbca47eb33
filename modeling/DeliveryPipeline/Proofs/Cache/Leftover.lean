import DeliveryPipeline.Proofs.Cache.Publication

/-!
# Locks that are left over

The lock of a key is retired once a value is published under the key. A request that looked before
the publication may fetch a lock after the retirement, and then it creates a new one. It finds the
value and leaves without retiring the lock. So the key keeps this lock for good, and that is the
only way in which a lock is left under a published key.
-/
namespace DeliveryPipeline.Concurrent

/-- Whether the lock of the key is about to be retired. -/
@[simp] def Stage.isRetiring {β ε : Type} : Stage β ε → Bool
  | retiring _ _ => true
  | _ => false

theorem Stage.isInside_of_isRetiring {β ε : Type} {stage : Stage β ε}
    (h : stage.isRetiring = true) : stage.isInside = true := by
  cases stage <;> first | rfl | cases h

namespace State

variable {κ β ε : Type} [DecidableEq κ] {s t : State κ β ε} {i : Nat} {r r' : Request κ β ε}
  {key : κ} {lock : Nat}

/-- What a step by which the request `r` becomes `r'` does to the locks: nothing, or a lock is
created, falls due to be retired, or is retired. -/
inductive LockEffect (s t : State κ β ε) (r r' : Request κ β ε) : Prop where
  | quiet (published : t.published = s.published) (locks : t.locks = s.locks)
      (before : r.stage.isRetiring = false) (after : r'.stage.isRetiring = false)
  | create (stage : r.stage = .seeking) (absent : s.locks r.key = none)
      (published : t.published = s.published)
      (locks : t.locks = bindKey s.locks r.key (some s.nextLock))
      (after : r'.stage.isRetiring = false)
  | publish {lock : Nat} {value : β} (stage : r.stage = .publishing lock value)
      (published : t.published = bindKey s.published r.key (some value))
      (locks : t.locks = s.locks) (after : r'.stage = .retiring lock value)
  | retire {lock : Nat} {value : β} (stage : r.stage = .retiring lock value)
      (published : t.published = s.published) (locks : t.locks = bindKey s.locks r.key none)
      (after : r'.stage.isRetiring = false)

theorem exists_lockEffect (h : StepOf s i r t) :
    ∃ r', t.requests = s.requests.set i r' ∧ r'.key = r.key ∧ LockEffect s t r r' := by
  cases h with
  | create stage absent => exact ⟨_, rfl, rfl, .create stage absent rfl rfl rfl⟩
  | publish stage => exact ⟨_, rfl, rfl, .publish stage rfl rfl rfl⟩
  | retire stage => exact ⟨_, rfl, rfl, .retire stage rfl rfl rfl⟩
  | _ => exact ⟨_, rfl, rfl, .quiet rfl rfl (by simp [*]) rfl⟩

/-- A step changes nothing under another key. -/
theorem LockEffect.elsewhere (h : LockEffect s t r r') (hne : key ≠ r.key) :
    t.published key = s.published key ∧ t.locks key = s.locks key := by
  cases h with
  | quiet published locks => exact ⟨by rw [published], by rw [locks]⟩
  | create _ _ published locks =>
    exact ⟨by rw [published], by rw [locks, bindKey_of_ne _ _ hne]⟩
  | publish _ published locks =>
    exact ⟨by rw [published, bindKey_of_ne _ _ hne], by rw [locks]⟩
  | retire _ published locks =>
    exact ⟨by rw [published], by rw [locks, bindKey_of_ne _ _ hne]⟩

omit [DecidableEq κ] in
/-- Some request is about to retire the lock of the key. -/
def Retiring (s : State κ β ε) (key : κ) : Prop :=
  ∃ (j : Nat) (q : Request κ β ε),
    s.requests[j]? = some q ∧ q.key = key ∧ q.stage.isRetiring = true

omit [DecidableEq κ] in
/-- Whether a lock is about to be retired changes only with the request that moves. -/
theorem retiring_iff (hi : s.requests[i]? = some r) (hset : t.requests = s.requests.set i r')
    (hkey : r'.key = r.key)
    (hsame : r.key = key → r'.stage.isRetiring = r.stage.isRetiring) :
    t.Retiring key ↔ s.Retiring key := by
  unfold Retiring
  rw [hset]
  constructor
  · rintro ⟨j, q, hj, hq, hretiring⟩
    rcases (getElem?_set_eq_some hi q r').1 hj with ⟨-, rfl⟩ | ⟨-, hj⟩
    · have hr : r.key = key := hkey ▸ hq
      exact ⟨i, r, hi, hr, hsame hr ▸ hretiring⟩
    · exact ⟨j, q, hj, hq, hretiring⟩
  · rintro ⟨j, q, hj, hq, hretiring⟩
    by_cases hji : j = i
    · subst hji
      obtain rfl : r = q := Option.some.inj (hi.symm.trans hj)
      exact ⟨j, r', (getElem?_set_eq_some hi r' r').2 (.inl ⟨rfl, rfl⟩), hkey.trans hq,
        (hsame hq).trans hretiring⟩
    · exact ⟨j, q, (getElem?_set_eq_some hi q r').2 (.inr ⟨hji, hj⟩), hq, hretiring⟩

omit [DecidableEq κ] in
/-- A lock that is about to be retired is the lock of its key. -/
def RetiresCurrent (s : State κ β ε) : Prop :=
  ∀ (j : Nat) (q : Request κ β ε) (lock : Nat) (value : β), s.requests[j]? = some q →
    q.stage = .retiring lock value → s.locks q.key = some lock

theorem RetiresCurrent.step (hs : s.Consistent) (hcurrent : s.RetiresCurrent)
    (hi : s.requests[i]? = some r) (h : StepOf s i r t) : t.RetiresCurrent := by
  obtain ⟨r', hset, hkey, heffect⟩ := exists_lockEffect h
  intro j q lock value hj hstage
  rw [hset, getElem?_set_eq_some hi] at hj
  rcases hj with ⟨-, rfl⟩ | ⟨hji, hj⟩
  · cases heffect with
    | quiet _ _ _ after => simp [hstage] at after
    | create _ _ _ _ after => simp [hstage] at after
    | publish stage _ locks after =>
      -- until now the request held the lock of a key without a value
      have hnone : s.published r.key = none := (hs.agrees hi).unpublished (by rw [stage]; rfl)
      have hlock := (hs.agrees hi).current hnone _ (by rw [stage]; rfl)
      rw [hstage] at after
      cases after
      rw [locks, hkey, hlock]
    | retire _ _ _ after => simp [hstage] at after
  · have hq := hcurrent j q lock value hj hstage
    cases heffect with
    | quiet _ locks => rw [locks, hq]
    | create _ absent _ locks =>
      have hne : q.key ≠ r.key := by
        intro he
        rw [he, absent] at hq
        cases hq
      rw [locks, bindKey_of_ne _ _ hne, hq]
    | publish _ _ locks => rw [locks, hq]
    | @retire lock' value' stage _ locks =>
      have hr := hcurrent i r lock' value' hi stage
      have hne : q.key ≠ r.key := by
        -- two requests that retire the lock of one key would hold the same lock
        intro he
        rw [he, hr] at hq
        cases hq
        exact hji (hs.exclusive hj hi (by rw [hstage]; rfl) (by rw [stage]; rfl))
      rw [locks, bindKey_of_ne _ _ hne, hq]

theorem Reachable.retiresCurrent {keys : List κ} (h : Reachable keys s) : s.RetiresCurrent := by
  induction h with
  | start =>
    intro j q lock value hj hstage
    have hq : q.stage = .arriving := by
      obtain ⟨k, -, rfl⟩ := List.mem_map.mp (List.mem_of_getElem? hj)
      rfl
    rw [hq] at hstage
    cases hstage
  | step hreach hstep ih =>
    obtain ⟨i, r, hi, hr⟩ := exists_stepOf hstep
    exact ih.step hreach.consistent hi hr

/-- The key is published and has a lock that no request is about to retire. -/
structure Left (s : State κ β ε) (key : κ) (lock : Nat) : Prop where
  published : s.published key ≠ none
  locks : s.locks key = some lock
  abandoned : ¬ s.Retiring key

omit [DecidableEq κ] in
/-- A step that changes nothing under the key keeps what is left there. -/
theorem Left.of_same (hleft : s.Left key lock) (hpublished : t.published key = s.published key)
    (hlocks : t.locks key = s.locks key) (hretiring : t.Retiring key ↔ s.Retiring key) :
    t.Left key lock where
  published := hpublished ▸ hleft.published
  locks := hlocks.trans hleft.locks
  abandoned := fun h => hleft.abandoned (hretiring.mp h)

theorem Left.step (hs : s.Consistent) (hleft : s.Left key lock) (hi : s.requests[i]? = some r)
    (h : StepOf s i r t) : t.Left key lock := by
  obtain ⟨r', hset, hkey, heffect⟩ := exists_lockEffect h
  by_cases he : r.key = key
  · subst he
    cases heffect with
    | quiet published locks before after =>
      exact hleft.of_same (by rw [published]) (by rw [locks])
        (retiring_iff hi hset hkey fun _ => after.trans before.symm)
    | create _ absent =>
      rw [hleft.locks] at absent
      cases absent
    | publish stage =>
      exact absurd ((hs.agrees hi).unpublished (by rw [stage]; rfl)) hleft.published
    | retire stage =>
      exact absurd ⟨i, r, hi, rfl, by rw [stage]; rfl⟩ hleft.abandoned
  · obtain ⟨hpublished, hlocks⟩ := heffect.elsewhere (Ne.symm he)
    exact hleft.of_same hpublished hlocks (retiring_iff hi hset hkey fun h => absurd h he)

/-- Nothing takes away a lock that is left. -/
theorem Reachable.left_later {keys : List κ} (h : Reachable keys s)
    (hst : Relation.ReflTransGen Steps s t) (hleft : s.Left key lock) : t.Left key lock := by
  induction hst with
  | refl => exact hleft
  | tail hsu hstep ih =>
    obtain ⟨i, r, hi, hr⟩ := exists_stepOf hstep
    exact ih.step (h.later hsu).consistent hi hr

/-- In the step from `s` to `t`, a request that has found nothing under its key before fetches a
lock for it, at a time when a value is published under the key and its lock is retired. -/
def FetchesLate (s t : State κ β ε) (key : κ) : Prop :=
  ∃ i r outcome, s.requests[i]? = some r ∧ r.key = key ∧ r.stage = .seeking ∧
    s.published key ≠ none ∧ s.locks key = none ∧ s.advance i outcome = some t

theorem FetchesLate.steps (h : s.FetchesLate t key) : s.Steps t := by
  obtain ⟨i, r, outcome, -, -, -, -, -, hstep⟩ := h
  exact ⟨i, outcome, hstep⟩

/-- The lock that is created too late is left. -/
theorem FetchesLate.left {keys : List κ} (hs : Reachable keys s) (h : s.FetchesLate t key) :
    ∃ lock, t.Left key lock := by
  obtain ⟨i, r, outcome, hi, rfl, hseeking, hpublished, hnone, hstep⟩ := h
  have habandoned : ¬ s.Retiring r.key := by
    rintro ⟨j, q, hj, hq, hretiring⟩
    cases hstage : q.stage with
    | retiring lock value =>
      have hlock := hs.retiresCurrent j q lock value hj hstage
      rw [hq, hnone] at hlock
      cases hlock
    | _ => simp [hstage] at hretiring
  have ht : t = { s.move i r (.queued s.nextLock) with
      locks := bindKey s.locks r.key (some s.nextLock)
      nextLock := s.nextLock + 1 } := by
    simpa [advance, hi, hseeking, hnone] using hstep.symm
  have hset : t.requests = s.requests.set i { r with stage := .queued s.nextLock } := by
    rw [ht]
    rfl
  refine ⟨s.nextLock, by rw [ht]; exact hpublished, by rw [ht]; exact bindKey_self _ _ _, ?_⟩
  rw [retiring_iff hi hset rfl fun _ => by rw [hseeking]; rfl]
  exact habandoned

/-- A published key that has a lock is about to lose it, unless a request has fetched it late. -/
theorem Reachable.retiring_or_fetched_late {keys : List κ} (h : Reachable keys s)
    (hpublished : s.published key ≠ none) (hlock : s.locks key ≠ none) :
    s.Retiring key ∨ ∃ u v, Reachable keys u ∧ u.FetchesLate v key ∧
      Relation.ReflTransGen Steps v s := by
  induction h with
  | start => exact absurd rfl hlock
  | @step s t hreach hstep ih =>
    obtain ⟨i, outcome, hadvance⟩ := hstep
    obtain ⟨r, hi, hr⟩ := stepOf_of_advance hadvance
    obtain ⟨r', hset, hkey, heffect⟩ := exists_lockEffect hr
    -- what was so before the step stays so, if the step leaves the key and its lock alone
    have hkeep (hp : t.published key = s.published key) (hl : t.locks key = s.locks key)
        (hsame : r.key = key → r'.stage.isRetiring = r.stage.isRetiring) :
        t.Retiring key ∨ ∃ u v, Reachable keys u ∧ u.FetchesLate v key ∧
          Relation.ReflTransGen Steps v t := by
      rw [retiring_iff hi hset hkey hsame]
      rcases ih (hp ▸ hpublished) (hl ▸ hlock) with hretiring | ⟨u, v, hu, hlate, hvs⟩
      · exact .inl hretiring
      · exact .inr ⟨u, v, hu, hlate, hvs.tail ⟨i, outcome, hadvance⟩⟩
    by_cases he : r.key = key
    · subst he
      cases heffect with
      | quiet published locks before after =>
        exact hkeep (by rw [published]) (by rw [locks]) fun _ => after.trans before.symm
      | create stage absent published =>
        rw [published] at hpublished
        exact .inr ⟨s, t, hreach, ⟨i, r, outcome, hi, rfl, stage, hpublished, absent, hadvance⟩,
          .refl⟩
      | publish _ _ _ after =>
        refine .inl ⟨i, r', ?_, hkey, by rw [after]; rfl⟩
        rw [hset, getElem?_set_eq_some hi]
        exact .inl ⟨rfl, rfl⟩
      | retire _ _ locks =>
        rw [locks, bindKey_self] at hlock
        exact absurd rfl hlock
    · obtain ⟨hp, hl⟩ := heffect.elsewhere (Ne.symm he)
      exact hkeep hp hl fun h => absurd h he

omit [DecidableEq κ] in
theorem not_retiring_of_quiet (hquiet : ∀ r ∈ s.requests, r.stage.isInside = false) (key : κ) :
    ¬ s.Retiring key := by
  rintro ⟨j, q, hj, -, hretiring⟩
  have hinside := Stage.isInside_of_isRetiring hretiring
  rw [hquiet q (List.mem_of_getElem? hj)] at hinside
  cases hinside

/-- When no request is between its start and its return, a published key has a lock exactly if some
request has fetched it late, and then the key has this lock for good. -/
theorem Reachable.lock_left_iff {keys : List κ} (h : Reachable keys s)
    (hquiet : ∀ r ∈ s.requests, r.stage.isInside = false) (key : κ) :
    (s.published key ≠ none ∧ s.locks key ≠ none ↔
      ∃ u v, Reachable keys u ∧ u.FetchesLate v key ∧ Relation.ReflTransGen Steps v s) ∧
    (s.published key ≠ none → ∀ lock, s.locks key = some lock →
      ∀ t, Relation.ReflTransGen Steps s t → t.locks key = some lock) := by
  have hretiring := not_retiring_of_quiet hquiet key
  refine ⟨⟨?_, ?_⟩, ?_⟩
  · rintro ⟨hpublished, hlock⟩
    exact (h.retiring_or_fetched_late hpublished hlock).resolve_left hretiring
  · rintro ⟨u, v, hu, hlate, hvs⟩
    obtain ⟨lock, hleft⟩ := hlate.left hu
    have hlater := (hu.step hlate.steps).left_later hvs hleft
    exact ⟨hlater.published, by simp [hlater.locks]⟩
  · intro hpublished lock hlock t hst
    exact (h.left_later hst ⟨hpublished, hlock, hretiring⟩).locks

/-- Both requests find nothing. The second one builds, publishes and returns before the first one
fetches a lock. -/
def overtakenSchedule : List (Nat × Except String String) :=
  [0, 1, 1, 1, 1, 1].map (·, .error "") ++ [(1, .ok "built")] ++
  [1, 1, 1, 0, 0, 0, 0].map (·, .error "")

theorem lock_left_under_published : ∃ s : State Nat String String, Reachable [7, 7] s ∧
    (∀ r ∈ s.requests, r.stage.isInside = false) ∧
    s.published 7 = some "built" ∧ s.locks 7 = some 1 := by
  have h : Reachable [7, 7] (((start [7, 7]).follow overtakenSchedule).get (by decide)) :=
    reachable_of_follow .start (Option.some_get _).symm
  exact ⟨_, h, by decide, by decide, by decide⟩

theorem overtaken_request_fetched_late : ∃ s : State Nat String String, Reachable [7, 7] s ∧
    (∀ r ∈ s.requests, r.stage.isInside = false) ∧
    (∃ u v, Reachable [7, 7] u ∧ u.FetchesLate v 7 ∧ Relation.ReflTransGen Steps v s) ∧
    (∀ t, Relation.ReflTransGen Steps s t → t.locks 7 = some 1) := by
  have h : Reachable [7, 7] (((start [7, 7]).follow overtakenSchedule).get (by decide)) :=
    reachable_of_follow .start (Option.some_get _).symm
  have hquiet : ∀ r ∈ (((start [7, 7]).follow overtakenSchedule).get (by decide)).requests,
      r.stage.isInside = false := by decide
  exact ⟨_, h, hquiet, (h.lock_left_iff hquiet 7).1.mp ⟨by decide, by decide⟩,
    (h.lock_left_iff hquiet 7).2 (by decide) 1 (by decide)⟩

end State

end DeliveryPipeline.Concurrent
