import DeliveryPipeline.Cache.Guarded
import DeliveryPipeline.Proofs.Cache.Publication

/-!
# Progress of concurrent requests

A lock is made for one key, so a request that waits for a build lock waits for a request of the same
key. The one that holds a build lock is never stopped by another build lock, and the one that holds
the lock of a table is stopped by nothing. So whoever waits, waits at last for a request that can
step, and no course of events comes to a halt before all requests have returned.
-/
namespace DeliveryPipeline.Concurrent

/-- Whether the request has returned. -/
def Stage.isFinished {β ε : Type} : Stage β ε → Bool
  | finished _ => true
  | _ => false

namespace State

variable {κ β ε : Type} [DecidableEq κ] {s t : State κ β ε} {i : Nat} {r r' : Request κ β ε}

/-- Every lock has been made for a key: it stands under no other key, and no request for another key
has fetched it. -/
structure MadeFor (s : State κ β ε) (keyOf : Nat → Option κ) : Prop where
  listed : ∀ {key : κ} {lock : Nat}, s.locks key = some lock →
    lock < s.nextLock ∧ keyOf lock = some key
  fetched : ∀ {i : Nat} {r : Request κ β ε} {lock : Nat}, s.requests[i]? = some r →
    r.stage.lock? = some lock → lock < s.nextLock ∧ keyOf lock = some r.key

section Locks

variable {keyOf : Nat → Option κ}

omit [DecidableEq κ] in
/-- A step that makes no lock: it is enough to look at the locks that stay and at the request that
moves. -/
theorem MadeFor.update (hs : s.MadeFor keyOf) (hi : s.requests[i]? = some r)
    (hset : t.requests = s.requests.set i r') (hkey : r'.key = r.key)
    (hnext : t.nextLock = s.nextLock)
    (hlocks : ∀ key lock, t.locks key = some lock → s.locks key = some lock)
    (hlock : ∀ lock, r'.stage.lock? = some lock →
      r.stage.lock? = some lock ∨ s.locks r.key = some lock) : t.MadeFor keyOf where
  listed h := hnext ▸ hs.listed (hlocks _ _ h)
  fetched := by
    intro j q lock hj hq
    rw [hnext]
    rw [hset, getElem?_set_eq_some hi] at hj
    rcases hj with ⟨-, rfl⟩ | ⟨-, hj⟩
    · rw [hkey]
      exact (hlock lock hq).elim (hs.fetched hi) hs.listed
    · exact hs.fetched hj hq

/-- A new lock is made for the key of the request that makes it. -/
theorem MadeFor.create (hs : s.MadeFor keyOf) (hi : s.requests[i]? = some r)
    (hset : t.requests = s.requests.set i { r with stage := .queued s.nextLock })
    (hlocks : t.locks = bindKey s.locks r.key (some s.nextLock))
    (hnext : t.nextLock = s.nextLock + 1) :
    t.MadeFor fun lock => if lock = s.nextLock then some r.key else keyOf lock where
  listed := by
    intro key lock h
    rw [hlocks] at h
    by_cases hkey : key = r.key
    · subst hkey
      obtain rfl : s.nextLock = lock := by simpa [bindKey_self] using h
      simp [hnext]
    · rw [bindKey_of_ne _ _ hkey] at h
      obtain ⟨hlt, hmade⟩ := hs.listed h
      exact ⟨hnext ▸ Nat.lt_succ_of_lt hlt, by rw [if_neg (Nat.ne_of_lt hlt), hmade]⟩
  fetched := by
    intro j q lock hj hq
    rw [hset, getElem?_set_eq_some hi] at hj
    rcases hj with ⟨-, rfl⟩ | ⟨-, hj⟩
    · obtain rfl : s.nextLock = lock := by simpa using hq
      simp [hnext]
    · obtain ⟨hlt, hmade⟩ := hs.fetched hj hq
      exact ⟨hnext ▸ Nat.lt_succ_of_lt hlt, by rw [if_neg (Nat.ne_of_lt hlt), hmade]⟩

theorem MadeFor.step (hs : s.MadeFor keyOf) (hi : s.requests[i]? = some r)
    (h : StepOf s i r t) : ∃ keyOf', t.MadeFor keyOf' := by
  cases h with
  | create => exact ⟨_, hs.create hi rfl rfl rfl⟩
  | fetch _ present => exact ⟨_, hs.update hi rfl rfl rfl (fun _ _ h => h) (by simp [present])⟩
  | retire stage =>
    refine ⟨_, hs.update hi rfl rfl rfl (fun key lock h => ?_) (by simp [stage])⟩
    by_cases hkey : key = r.key
    · simp [hkey, bindKey_self] at h
    · simpa [bindKey_of_ne _ _ hkey] using h
  | _ => exact ⟨_, hs.update hi rfl rfl rfl (fun _ _ h => h) (by simp [*])⟩

theorem Reachable.exists_madeFor {keys : List κ} (h : Reachable keys s) :
    ∃ keyOf, s.MadeFor keyOf := by
  induction h with
  | start =>
    refine ⟨fun _ => none, by simp [State.start], ?_⟩
    intro i r lock hi hr
    obtain ⟨key, -, rfl⟩ := List.mem_map.mp (List.mem_of_getElem? hi)
    simp at hr
  | step _ hstep ih =>
    obtain ⟨keyOf, hs⟩ := ih
    obtain ⟨i, r, hi, hr⟩ := exists_stepOf hstep
    exact hs.step hi hr

end Locks

section Waiting

variable {j : Nat} {outcome : Except ε β}

/-- A request that has not returned is stopped only by a lock that it has fetched and
that is held. -/
theorem advance_eq_none_iff (hi : s.requests[i]? = some r) (hopen : r.stage.isFinished = false) :
    s.advance i outcome = none ↔ ∃ lock, r.stage = .queued lock ∧ s.isHeld lock = true := by
  simp only [advance, hi]
  cases hstage : r.stage with
  | arriving | rechecking => cases s.published r.key <;> simp
  | seeking => cases s.locks r.key <;> simp
  | queued lock => cases s.isHeld lock <;> simp
  | building => cases outcome <;> simp
  | finished => simp [hstage, Stage.isFinished] at hopen
  | _ => simp

omit [DecidableEq κ] in
/-- The request with the number `i` has fetched a build lock, and the one with the number `j`,
another request for the same key, holds it. -/
def WaitsFor (s : State κ β ε) (i j : Nat) : Prop :=
  ∃ r q lock, j ≠ i ∧ s.requests[i]? = some r ∧ s.requests[j]? = some q ∧ q.key = r.key ∧
    r.stage = .queued lock ∧ q.stage.held? = some lock

/-- Whoever holds the lock that a request has fetched is another request for the same key. -/
theorem Reachable.exists_waitsFor {keys : List κ} (h : Reachable keys s)
    (hi : s.requests[i]? = some r) (hopen : r.stage.isFinished = false)
    (hnone : s.advance i outcome = none) : ∃ j, s.WaitsFor i j := by
  obtain ⟨lock, hqueued, hheld⟩ := (advance_eq_none_iff hi hopen).1 hnone
  obtain ⟨j, q, hj, hq⟩ := isHeld_iff.1 hheld
  obtain ⟨keyOf, hs⟩ := h.exists_madeFor
  have hr : keyOf lock = some r.key := (hs.fetched hi (by simp [hqueued])).2
  have hkey : keyOf lock = some q.key := (hs.fetched hj (Stage.lock?_of_held? hq)).2
  refine ⟨j, r, q, lock, ?_, hi, hj, Option.some.inj (hkey.symm.trans hr), hqueued, hq⟩
  rintro rfl
  -- a request that waits at a lock holds none
  obtain rfl : r = q := Option.some.inj (hi.symm.trans hj)
  simp [hqueued] at hq

/-- A request that holds a build lock can step. -/
theorem exists_advance_of_held {q : Request κ β ε} {lock : Nat} (hj : s.requests[j]? = some q)
    (hq : q.stage.held? = some lock) (outcome : Except ε β) :
    ∃ t, s.advance j outcome = some t := by
  have hopen : q.stage.isFinished = false := by
    cases hstage : q.stage <;> simp_all [Stage.isFinished]
  rw [← Option.ne_none_iff_exists', Ne, advance_eq_none_iff hj hopen]
  rintro ⟨waited, hqueued, -⟩
  simp [hqueued] at hq

/-- Before all requests have returned, one of them can step. -/
theorem exists_advance (hr : r ∈ s.requests)
    (hopen : r.stage.isFinished = false) : ∃ i, ∀ outcome, ∃ t, s.advance i outcome = some t := by
  obtain ⟨i, hi⟩ := List.mem_iff_getElem?.mp hr
  by_cases hwaits : ∃ lock, r.stage = .queued lock ∧ s.isHeld lock = true
  · obtain ⟨lock, -, hheld⟩ := hwaits
    obtain ⟨j, q, hj, hq⟩ := isHeld_iff.1 hheld
    exact ⟨j, exists_advance_of_held hj hq⟩
  · refine ⟨i, fun outcome => ?_⟩
    rwa [← Option.ne_none_iff_exists', Ne, advance_eq_none_iff hi hopen]

/-- A request that needs a table for its next step is not stopped by a build lock. -/
theorem exists_advance_of_use {use : TableUse} (hi : s.requests[i]? = some r)
    (huse : r.stage.use? = some use) (outcome : Except ε β) :
    ∃ t, s.advance i outcome = some t := by
  have hopen : r.stage.isFinished = false := by
    cases hstage : r.stage <;> simp_all [Stage.isFinished, Stage.use?]
  rw [← Option.ne_none_iff_exists', Ne, advance_eq_none_iff hi hopen]
  rintro ⟨waited, hqueued, -⟩
  simp [hqueued, Stage.use?] at huse

theorem getElem?_of_advance (h : s.advance i outcome = some t) (hne : j ≠ i) :
    t.requests[j]? = s.requests[j]? := by
  obtain ⟨r, -, hr⟩ := stepOf_of_advance h
  cases hr <;> exact List.getElem?_set_ne (Ne.symm hne)

end Waiting

end State

namespace Guarded

variable {κ β ε : Type} [DecidableEq κ] {g t : Guarded κ β ε} {i j : Nat} {r : Request κ β ε}
  {use : TableUse} {outcome : Except ε β}

omit [DecidableEq κ] in
theorem isHolder_iff : g.isHolder i = true ↔ ∃ use, (i, use) ∈ g.holders := by
  simp [isHolder]

/-- A step acquires the lock of a table, or is a step of the requests themselves. -/
theorem advance_cases (h : g.advance i outcome = some t) :
    (∃ r use, g.state.requests[i]? = some r ∧ r.stage.use? = some use ∧ t = g.acquire i use) ∨
    ∃ s, g.state.advance i outcome = some s ∧
      t = ⟨s, g.holders.filter fun holder => holder.1 != i⟩ := by
  have hact (h : g.act i outcome = some t) : ∃ s, g.state.advance i outcome = some s ∧
      t = ⟨s, g.holders.filter fun holder => holder.1 != i⟩ := by
    obtain ⟨s, hs, rfl⟩ := Option.map_eq_some_iff.1 h
    exact ⟨s, hs, rfl⟩
  unfold advance at h
  split at h
  next => exact .inr (hact h)
  next use huse =>
    split at h
    next => exact .inr (hact h)
    next =>
      split at h
      next => cases h
      next =>
        obtain ⟨r, hi, hr⟩ := Option.bind_eq_some_iff.1 huse
        exact .inl ⟨r, use, hi, hr, (Option.some.inj h).symm⟩

omit [DecidableEq κ] in
/-- Whoever holds the lock of a table is about to use the table. -/
def Tidy (g : Guarded κ β ε) : Prop :=
  ∀ i use, (i, use) ∈ g.holders → ∃ r, g.state.requests[i]? = some r ∧ r.stage.use? = some use

theorem Tidy.step (hg : g.Tidy) (h : g.advance i outcome = some t) : t.Tidy := by
  intro j use hj
  rcases advance_cases h with ⟨r, needed, hi, hr, rfl⟩ | ⟨s, hs, rfl⟩
  · rcases List.mem_cons.1 hj with heq | hj
    · cases heq
      exact ⟨r, hi, hr⟩
    · exact hg j use hj
  · obtain ⟨hj, hne⟩ := List.mem_filter.1 hj
    rw [State.getElem?_of_advance hs (by simpa using hne)]
    exact hg j use hj

theorem Reachable.tidy {keys : List κ} (h : Reachable keys g) : g.Tidy := by
  induction h with
  | start => intro i use hi; cases hi
  | step _ hstep ih => exact ih.step hstep

/-- With guarded tables the requests come to no other states. -/
theorem Reachable.reachable_state {keys : List κ} (h : Reachable keys g) :
    State.Reachable keys g.state := by
  induction h with
  | start => exact .start
  | step _ hstep ih =>
    rcases advance_cases hstep with ⟨r, use, -, -, rfl⟩ | ⟨s, hs, rfl⟩
    · exact ih
    · exact ih.step ⟨_, _, hs⟩

theorem reachable_of_follow {keys : List κ} (hg : Reachable keys g)
    {schedule : List (Nat × Except ε β)} (h : g.follow schedule = some t) : Reachable keys t := by
  induction schedule generalizing g with
  | nil => simp only [follow, Option.some.injEq] at h; exact h ▸ hg
  | cons choice rest ih =>
    obtain ⟨u, hu, hrest⟩ := Option.bind_eq_some_iff.mp h
    exact ih (hg.step hu) hrest

/-- While no lock of a table is held, a request acquires the one that it needs and
takes its step. -/
theorem exists_follow_of_advance {s s' : State κ β ε} (h : s.advance i outcome = some s') :
    ∃ schedule, follow ⟨s, []⟩ schedule = some ⟨s', []⟩ := by
  cases huse : s.requests[i]?.bind fun r => r.stage.use? with
  | none => exact ⟨[(i, outcome)], by simp [follow, advance, huse, act, h]⟩
  | some use =>
    refine ⟨[(i, outcome), (i, outcome)], ?_⟩
    simp [follow, advance, huse, isHolder, keepsAway, acquire, act, h]

/-- The requests come to the same states with guarded tables as without. -/
theorem reachable_state_iff {keys : List κ} {s : State κ β ε} :
    State.Reachable keys s ↔ ∃ g, Reachable keys g ∧ g.state = s := by
  constructor
  · intro h
    suffices hfree : Reachable keys (⟨s, []⟩ : Guarded κ β ε) from ⟨_, hfree, rfl⟩
    induction h with
    | start => exact .start
    | step _ hstep ih =>
      obtain ⟨i, outcome, hadvance⟩ := hstep
      obtain ⟨schedule, hfollow⟩ := exists_follow_of_advance hadvance
      exact reachable_of_follow ih hfollow
  · rintro ⟨g, hg, rfl⟩
    exact hg.reachable_state

/-- A request that holds the lock of a table can step. -/
theorem Tidy.exists_advance_of_holder (hg : g.Tidy) (hi : (i, use) ∈ g.holders)
    (outcome : Except ε β) : ∃ t, g.advance i outcome = some t := by
  obtain ⟨r, hr, huse⟩ := hg i use hi
  obtain ⟨s, hs⟩ := State.exists_advance_of_use hr huse outcome
  have hholder : g.isHolder i = true := isHolder_iff.2 ⟨use, hi⟩
  simp only [advance, hr, Option.bind_some, huse, hholder, if_true, act, hs, Option.map_some]
  exact ⟨_, rfl⟩

/-- Before all requests have returned, one of them can step. -/
theorem Tidy.exists_advance (hg : g.Tidy) (hr : r ∈ g.state.requests)
    (hopen : r.stage.isFinished = false) : ∃ i, ∀ outcome, ∃ t, g.advance i outcome = some t := by
  cases hholders : g.holders with
  | cons holder _ =>
    have hholder : (holder.1, holder.2) ∈ g.holders := by simp [hholders]
    exact ⟨holder.1, hg.exists_advance_of_holder hholder⟩
  | nil =>
    -- the tables are free, so a request that can step otherwise can step here
    obtain ⟨i, hi⟩ := State.exists_advance hr hopen
    refine ⟨i, fun outcome => ?_⟩
    obtain ⟨s, hs⟩ := hi outcome
    unfold advance
    split
    next => simp [act, hs]
    next => simp [isHolder, keepsAway, hholders]

omit [DecidableEq κ] in
/-- The request with the number `i` needs a table, and the one with the number `j`, another request
that builds nothing meanwhile, holds its lock and keeps it away. -/
def WaitsAtTable (g : Guarded κ β ε) (i j : Nat) : Prop :=
  ∃ r q use other, j ≠ i ∧ g.state.requests[i]? = some r ∧ g.state.requests[j]? = some q ∧
    r.stage.use? = some use ∧ (j, other) ∈ g.holders ∧ other.excludes use = true ∧
    q.stage.isBuilding = false

/-- A request that cannot step waits at a build lock for a request of the same key, or
at a table. -/
theorem Reachable.exists_waits {keys : List κ} (h : Reachable keys g)
    (hi : g.state.requests[i]? = some r) (hopen : r.stage.isFinished = false)
    (hnone : g.advance i outcome = none) :
    (∃ j, g.state.WaitsFor i j) ∨ ∃ j, g.WaitsAtTable i j := by
  have hact (hnone : g.act i outcome = none) : g.state.advance i outcome = none := by
    simpa [act] using hnone
  simp only [advance, hi, Option.bind_some] at hnone
  split at hnone
  next => exact .inl (h.reachable_state.exists_waitsFor hi hopen (hact hnone))
  next use huse =>
    split at hnone
    next =>
      obtain ⟨s, hs⟩ := State.exists_advance_of_use hi huse outcome
      rw [hact hnone] at hs
      cases hs
    next hnot =>
      have haway : g.keepsAway use = true := by
        by_contra hfree
        simp [hfree] at hnone
      obtain ⟨⟨j, other⟩, hj, hexcludes⟩ := List.any_eq_true.1 haway
      obtain ⟨q, hq, hother⟩ := h.tidy j other hj
      refine .inr ⟨j, r, q, use, other, ?_, hi, hq, huse, hj, hexcludes, ?_⟩
      · rintro rfl
        exact hnot (isHolder_iff.2 ⟨other, hj⟩)
      · cases hstage : q.stage <;> simp_all [Stage.use?]

/-- No course of events comes to a halt: before all requests have returned, one of them can step. A
request that cannot waits for another request of the same key, which holds the build lock. With
guarded tables the requests come to the same states and do not halt either. There, a request may
also wait at a table for one that builds nothing meanwhile and can step at once. -/
theorem no_deadlock {keys : List κ} :
    (∀ s : State κ β ε, State.Reachable keys s →
      ((∃ r ∈ s.requests, r.stage.isFinished = false) →
        ∃ i, ∀ outcome, ∃ t, s.advance i outcome = some t) ∧
      ∀ i r outcome, s.requests[i]? = some r → r.stage.isFinished = false →
        s.advance i outcome = none → ∃ j, s.WaitsFor i j) ∧
    (∀ s : State κ β ε, State.Reachable keys s ↔ ∃ g, Reachable keys g ∧ g.state = s) ∧
    ∀ g : Guarded κ β ε, Reachable keys g →
      ((∃ r ∈ g.state.requests, r.stage.isFinished = false) →
        ∃ i, ∀ outcome, ∃ t, g.advance i outcome = some t) ∧
      ∀ i r outcome, g.state.requests[i]? = some r → r.stage.isFinished = false →
        g.advance i outcome = none → (∃ j, g.state.WaitsFor i j) ∨
          ∃ j, g.WaitsAtTable i j ∧ ∀ outcome, ∃ t, g.advance j outcome = some t := by
  refine ⟨fun s hs => ⟨?_, ?_⟩, fun s => reachable_state_iff, fun g hg => ⟨?_, ?_⟩⟩
  · rintro ⟨r, hr, hopen⟩
    exact State.exists_advance hr hopen
  · intro i r outcome hi hopen hnone
    exact hs.exists_waitsFor hi hopen hnone
  · rintro ⟨r, hr, hopen⟩
    exact hg.tidy.exists_advance hr hopen
  · intro i r outcome hi hopen hnone
    refine (hg.exists_waits hi hopen hnone).imp_right ?_
    rintro ⟨j, r, q, use, other, hwaits⟩
    exact ⟨j, ⟨r, q, use, other, hwaits⟩, hg.tidy.exists_advance_of_holder hwaits.2.2.2.2.1⟩

/-- The first request builds, and the second one has fetched its lock. The third one, for another
key, has built in the meantime and holds the table of the published values, which the last one
needs. -/
def crowdedSchedule : List (Nat × Except String String) :=
  [0, 0, 0, 0, 0, 0, 0, 0, 1, 1, 1, 1, 2, 2, 2, 2, 2, 2, 2, 2].map (·, .error "") ++
  [(2, .ok "built"), (2, .error "")]

/-- Of the four requests one waits at a build lock and one at a table, and another one can step. -/
theorem crowded_requests_go_on : ∃ g : Guarded Nat String String, Reachable [7, 7, 3, 5] g ∧
    (g.state.requests.map fun r => r.stage.isBuilding) = [true, false, false, false] ∧
    g.advance 1 (.error "") = none ∧ (∃ j, g.state.WaitsFor 1 j) ∧
    g.advance 3 (.error "") = none ∧
    ((∃ j, g.state.WaitsFor 3 j) ∨
      ∃ j, g.WaitsAtTable 3 j ∧ ∀ outcome, ∃ t, g.advance j outcome = some t) ∧
    ∃ i, ∀ outcome, ∃ t, g.advance i outcome = some t := by
  have h : Reachable [7, 7, 3, 5] (((start [7, 7, 3, 5]).follow crowdedSchedule).get (by decide)) :=
    reachable_of_follow .start (Option.some_get _).symm
  obtain ⟨hstates, -, hguarded⟩ := @no_deadlock Nat String String _ [7, 7, 3, 5]
  refine ⟨_, h, by decide, by decide, ?_, by decide, ?_, ?_⟩
  · exact (hstates _ h.reachable_state).2 1 _ (.error "") rfl rfl (by decide)
  · exact (hguarded _ h).2 3 _ (.error "") rfl rfl (by decide)
  · exact (hguarded _ h).1 ⟨_, List.mem_cons_self, rfl⟩

end Guarded

end DeliveryPipeline.Concurrent
