import DeliveryPipeline.Proofs.Cache.Steps
import Mathlib.Logic.Relation

/-!
# At most one publication under a key

Whatever the order of their steps, requests for one key never build at the same time, and at most
one of their builds succeeds. The lock of a key may change once a value is published. Until then
every request that has fetched a lock for the key has fetched the current one, so the requests that
build or publish exclude each other, and a request that comes with another lock finds the value.
-/
namespace DeliveryPipeline.Concurrent

namespace Stage

variable {β ε : Type}

/-- The lock that has been fetched, whether it is held or waited for. -/
@[simp] def lock? : Stage β ε → Option Nat
  | queued lock | rechecking lock | preparing lock | building lock => some lock
  | publishing lock _ | retiring lock _ | leaving lock _ => some lock
  | arriving | seeking | finished _ => none

/-- Whether nothing was found under the lock, and nothing has been published since. -/
@[simp] def isOwing : Stage β ε → Bool
  | preparing _ | building _ | publishing _ _ => true
  | _ => false

/-- Whether a build has succeeded whose value is not published yet. -/
@[simp] def isPublishing : Stage β ε → Bool
  | publishing _ _ => true
  | _ => false

/-- The value that is returned or about to be returned. -/
@[simp] def value? : Stage β ε → Option β
  | retiring _ value | leaving _ (.ok value) | finished (.ok value) => some value
  | _ => none

theorem lock?_of_held? {stage : Stage β ε} {lock : Nat} (h : stage.held? = some lock) :
    stage.lock? = some lock := by
  cases stage <;> simp_all

theorem held?_of_isOwing {stage : Stage β ε} (h : stage.isOwing = true) :
    ∃ lock, stage.held? = some lock := by
  cases stage <;> simp_all

theorem isOwing_of_isBuilding {stage : Stage β ε} (h : stage.isBuilding = true) :
    stage.isOwing = true := by
  cases stage <;> simp_all

theorem isOwing_of_isPublishing {stage : Stage β ε} (h : stage.isPublishing = true) :
    stage.isOwing = true := by
  cases stage <;> simp_all

end Stage

variable {κ β ε : Type}

/-- How many values a request is about to publish. -/
@[simp] def Request.pending (r : Request κ β ε) : Nat :=
  if r.stage.isPublishing = true then 1 else 0

theorem Request.pending_le_one (r : Request κ β ε) : r.pending ≤ 1 := by
  cases h : r.stage.isPublishing <;> simp only [pending, h] <;> decide

theorem Request.isOwing_of_pending {r : Request κ β ε} (h : r.pending ≠ 0) :
    r.stage.isOwing = true := by
  apply Stage.isOwing_of_isPublishing
  by_contra hnot
  exact h (if_neg hnot)

/-- What a request may rely on while others step. -/
structure Request.Agrees (r : Request κ β ε) (published : κ → Option β)
    (locks : κ → Option Nat) : Prop where
  /-- Before a value is published, a fetched lock is the lock of the key. -/
  current : published r.key = none → ∀ lock, r.stage.lock? = some lock →
    locks r.key = some lock
  /-- A request that is about to publish finds its key unpublished. -/
  unpublished : r.stage.isOwing = true → published r.key = none
  /-- A value that is returned is the published one. -/
  settled : ∀ value, r.stage.value? = some value → published r.key = some value

namespace Request.Agrees

variable {published : κ → Option β} {locks : κ → Option Nat} {r r' : Request κ β ε}

/-- A request that claims no more than before relies on no more than before. -/
theorem weaken (h : r.Agrees published locks) (hkey : r'.key = r.key)
    (hlock : ∀ lock, r'.stage.lock? = some lock → r.stage.lock? = some lock)
    (howing : r'.stage.isOwing = true → r.stage.isOwing = true)
    (hvalue : ∀ value, r'.stage.value? = some value → r.stage.value? = some value) :
    r'.Agrees published locks := by
  constructor
  · intro hnone lock hl
    rw [hkey] at hnone ⊢
    exact h.current hnone lock (hlock lock hl)
  · intro ho
    rw [hkey]
    exact h.unpublished (howing ho)
  · intro value hv
    rw [hkey]
    exact h.settled value (hvalue value hv)

/-- Publishing under another key changes nothing for a request. -/
theorem publish_of_ne [DecidableEq κ] (h : r.Agrees published locks) {key : κ} (hne : r.key ≠ key)
    (value : Option β) : r.Agrees (State.bindKey published key value) locks := by
  have he := State.bindKey_of_ne published value hne
  constructor
  · rw [he]
    exact h.current
  · rw [he]
    exact h.unpublished
  · rw [he]
    exact h.settled

/-- The lock of a key may change once no request with a lock of that key relies on it. -/
theorem relock [DecidableEq κ] (h : r.Agrees published locks) {key : κ}
    (hfree : published r.key = none → r.key = key → r.stage.lock? = none) (lock' : Option Nat) :
    r.Agrees published (State.bindKey locks key lock') := by
  refine ⟨?_, h.unpublished, h.settled⟩
  intro hnone lock hlock
  have hne : r.key ≠ key := by
    intro he
    rw [hfree hnone he] at hlock
    cases hlock
  rw [State.bindKey_of_ne locks lock' hne]
  exact h.current hnone lock hlock

end Request.Agrees

namespace State

variable [DecidableEq κ] {s t : State κ β ε} {i : Nat} {r r' : Request κ β ε}

/-- The invariant of the cache and its requests. -/
structure Consistent (s : State κ β ε) : Prop where
  /-- A lock is held by one request at most. -/
  exclusive : ∀ {i j : Nat} {r q : Request κ β ε} {lock : Nat},
    s.requests[i]? = some r → s.requests[j]? = some q →
    r.stage.held? = some lock → q.stage.held? = some lock → i = j
  agrees : ∀ {i : Nat} {r : Request κ β ε}, s.requests[i]? = some r →
    r.Agrees s.published s.locks
  /-- A build that has succeeded is published or about to be. -/
  balanced : ∀ key, s.successes key = (s.published key).toList.length +
    (s.requests.map fun r => if r.key = key then r.pending else 0).sum

/-- Requests for one key that owe a value all hold the lock of that key. -/
theorem Consistent.owing_unique (hs : s.Consistent) {i j : Nat} {r q : Request κ β ε}
    (hi : s.requests[i]? = some r) (hj : s.requests[j]? = some q) (hkey : r.key = q.key)
    (hr : r.stage.isOwing = true) (hq : q.stage.isOwing = true) : i = j := by
  have hnone := (hs.agrees hi).unpublished hr
  obtain ⟨a, ha⟩ := Stage.held?_of_isOwing hr
  obtain ⟨b, hb⟩ := Stage.held?_of_isOwing hq
  have hka := (hs.agrees hi).current hnone a (Stage.lock?_of_held? ha)
  have hkb := (hs.agrees hj).current (hkey ▸ hnone) b (Stage.lock?_of_held? hb)
  have hab : a = b := by
    rw [hkey, hkb] at hka
    exact (Option.some.inj hka).symm
  exact hs.exclusive hi hj ha (hab ▸ hb)

theorem consistent_start (keys : List κ) : (start keys : State κ β ε).Consistent := by
  have hstage : ∀ {i : Nat} {r : Request κ β ε},
      (start keys : State κ β ε).requests[i]? = some r → r.stage = .arriving := by
    intro i r hi
    obtain ⟨key, -, rfl⟩ := List.mem_map.mp (List.mem_of_getElem? hi)
    rfl
  constructor
  · intro i j r q lock hi hj hr hq
    simp [hstage hi] at hr
  · intro i r hi
    constructor <;> simp [hstage hi]
  · intro key
    simp [start, successes, Request.successes, Function.comp_def]

/-- The frame of a step: it is enough to look at the request that moves, and at what the others may
rely on. -/
theorem Consistent.update (hs : s.Consistent) (hi : s.requests[i]? = some r)
    (hset : t.requests = s.requests.set i r') (hkey : r'.key = r.key)
    (hheld : ∀ lock, r'.stage.held? = some lock →
      r.stage.held? = some lock ∨ s.isHeld lock = false)
    (hself : r'.Agrees t.published t.locks)
    (hothers : ∀ (j : Nat) (q : Request κ β ε), j ≠ i → s.requests[j]? = some q →
      q.Agrees t.published t.locks)
    (hcount : r'.successes + (s.published r.key).toList.length + r.pending =
      r.successes + (t.published r.key).toList.length + r'.pending)
    (hpublished : ∀ key, r.key ≠ key → t.published key = s.published key) :
    t.Consistent := by
  have hfree : ∀ {j : Nat} {q : Request κ β ε} {lock : Nat}, j ≠ i → s.requests[j]? = some q →
      r'.stage.held? = some lock → q.stage.held? ≠ some lock := by
    intro j q lock hji hj hr' hq
    rcases hheld lock hr' with hr | hnot
    · exact hji (hs.exclusive hj hi hq hr)
    · rw [isHeld_iff.mpr ⟨j, q, hj, hq⟩] at hnot
      cases hnot
  constructor
  · intro a b p q lock ha hb hp hq
    rw [hset, getElem?_set_eq_some hi] at ha hb
    rcases ha with ⟨rfl, rfl⟩ | ⟨hai, ha⟩ <;> rcases hb with ⟨rfl, rfl⟩ | ⟨hbi, hb⟩
    · rfl
    · exact (hfree hbi hb hp hq).elim
    · exact (hfree hai ha hq hp).elim
    · exact hs.exclusive ha hb hp hq
  · intro j q hj
    rw [hset, getElem?_set_eq_some hi] at hj
    rcases hj with ⟨rfl, rfl⟩ | ⟨hji, hj⟩
    · exact hself
    · exact hothers j q hji hj
  · intro key
    have hsucc := sum_map_set (fun r => if r.key = key then r.successes else 0) hi r'
    have hpending := sum_map_set (fun r => if r.key = key then r.pending else 0) hi r'
    have hold := hs.balanced key
    simp only [successes, hset, hkey] at hold hsucc hpending ⊢
    by_cases hk : r.key = key
    · subst hk
      simp only [if_true] at hsucc hpending
      omega
    · rw [hpublished key hk]
      simp only [if_neg hk] at hsucc hpending
      omega

/-- A step that touches neither the published values nor the locks. -/
theorem Consistent.update_quiet (hs : s.Consistent) (hi : s.requests[i]? = some r)
    (hset : t.requests = s.requests.set i r') (hkey : r'.key = r.key)
    (hpublished : t.published = s.published) (hlocks : t.locks = s.locks)
    (hheld : ∀ lock, r'.stage.held? = some lock →
      r.stage.held? = some lock ∨ s.isHeld lock = false)
    (hself : r'.Agrees s.published s.locks)
    (hcount : r'.successes + r.pending = r.successes + r'.pending) : t.Consistent := by
  refine hs.update hi hset hkey hheld ?_ ?_ ?_ ?_
  · rwa [hpublished, hlocks]
  · intro j q _ hj
    rw [hpublished, hlocks]
    exact hs.agrees hj
  · rw [hpublished]
    omega
  · intro key _
    rw [hpublished]

/-- Publishing is safe, since no other request of the key owes a value or has found one. -/
theorem Consistent.publish (hs : s.Consistent) (hi : s.requests[i]? = some r) {lock : Nat}
    {value : β} (stage : r.stage = .publishing lock value) :
    State.Consistent { s.move i r (.retiring lock value) with
      published := bindKey s.published r.key (some value) } := by
  have howing : r.stage.isOwing = true := by simp [stage]
  have hnone := (hs.agrees hi).unpublished howing
  refine hs.update hi rfl rfl ?_ ?_ ?_ ?_ ?_
  · simp [stage]
  · constructor <;> simp [bindKey_self]
  · intro j q hji hj
    have hq := hs.agrees hj
    by_cases hkey : q.key = r.key
    · constructor
      · simp [hkey, bindKey_self]
      · -- two requests of one key that owe a value would hold the same lock
        intro ho
        exact (hji (hs.owing_unique hj hi hkey ho howing)).elim
      · intro v hv
        have hfound := hq.settled v hv
        rw [hkey, hnone] at hfound
        cases hfound
    · exact hq.publish_of_ne hkey (some value)
  · simp [Request.successes, stage, bindKey_self, hnone]
  · intro key hkey
    exact bindKey_of_ne _ _ (Ne.symm hkey)

theorem Consistent.step (hs : s.Consistent) (hi : s.requests[i]? = some r)
    (h : StepOf s i r t) : t.Consistent := by
  have ha := hs.agrees hi
  cases h with
  | find stage found =>
    refine hs.update_quiet hi rfl rfl rfl rfl ?_ ?_ ?_
    · simp
    · constructor <;> simp [found]
    · simp [Request.successes, stage]
  | miss stage absent =>
    refine hs.update_quiet hi rfl rfl rfl rfl ?_ ?_ ?_
    · simp
    · constructor <;> simp
    · simp [Request.successes, stage]
  | fetch stage present =>
    refine hs.update_quiet hi rfl rfl rfl rfl ?_ ?_ ?_
    · simp
    · constructor <;> simp [present]
    · simp [Request.successes, stage]
  | create stage absent =>
    refine hs.update hi rfl rfl ?_ ?_ ?_ ?_ ?_
    · simp
    · constructor <;> simp [bindKey_self]
    · intro j q _ hj
      have hq := hs.agrees hj
      apply hq.relock
      -- the key has no lock, so no request can have fetched one that still counts
      intro hnone hkey
      cases hl : q.stage.lock? with
      | none => rfl
      | some lock =>
        have hcurrent := hq.current hnone lock hl
        rw [hkey, absent] at hcurrent
        cases hcurrent
    · simp [Request.successes, stage]
    · simp
  | acquire stage free =>
    refine hs.update_quiet hi rfl rfl rfl rfl ?_ ?_ ?_
    · simp [free]
    · refine ha.weaken rfl ?_ ?_ ?_ <;> simp [stage]
    · simp [Request.successes, stage]
  | findAgain stage found =>
    refine hs.update_quiet hi rfl rfl rfl rfl ?_ ?_ ?_
    · simp [stage]
    · constructor <;> simp [found]
    · simp [Request.successes, stage]
  | missAgain stage absent =>
    refine hs.update_quiet hi rfl rfl rfl rfl ?_ ?_ ?_
    · simp [stage]
    · refine ⟨?_, fun _ => absent, ?_⟩
      · simpa [stage, Stage.lock?] using ha.current
      · simp
    · simp [Request.successes, stage]
  | begin stage =>
    refine hs.update_quiet hi rfl rfl rfl rfl ?_ ?_ ?_
    · simp [stage]
    · refine ha.weaken rfl ?_ ?_ ?_ <;> simp [stage]
    · simp [Request.successes, stage]
  | succeed value stage =>
    refine hs.update_quiet hi rfl rfl rfl rfl ?_ ?_ ?_
    · simp [stage]
    · refine ha.weaken rfl ?_ ?_ ?_ <;> simp [stage]
    · simp [Request.successes, stage, Except.isOk, Except.toBool]
  | fail e stage =>
    refine hs.update_quiet hi rfl rfl rfl rfl ?_ ?_ ?_
    · simp [stage]
    · refine ha.weaken rfl ?_ ?_ ?_ <;> simp [stage]
    · simp [Request.successes, stage, Except.isOk, Except.toBool]
  | publish stage => exact hs.publish hi stage
  | retire stage =>
    have hpublished := ha.settled _ (by rw [stage]; rfl)
    refine hs.update hi rfl rfl ?_ ?_ ?_ ?_ ?_
    · simp [stage]
    · constructor <;> simp [hpublished]
    · intro j q _ hj
      apply (hs.agrees hj).relock
      -- the lock goes after the publication, so nobody relies on it any more
      intro hnone hkey
      rw [hkey, hpublished] at hnone
      cases hnone
    · simp [Request.successes, stage]
    · simp
  | @release lock result stage =>
    refine hs.update_quiet hi rfl rfl rfl rfl ?_ ?_ ?_
    · simp
    · cases result <;> refine ha.weaken rfl ?_ ?_ ?_ <;> simp [stage]
    · simp [Request.successes, stage]

theorem Reachable.consistent {keys : List κ} (h : Reachable keys s) : s.Consistent := by
  induction h with
  | start => exact consistent_start keys
  | step _ hstep ih =>
    obtain ⟨i, r, hi, hr⟩ := exists_stepOf hstep
    exact ih.step hi hr

/-- A step rebinds a key only before anything is published under it. -/
theorem Consistent.published_step (hs : s.Consistent) (h : s.Steps t) {key : κ} {value : β}
    (hkey : s.published key = some value) : t.published key = some value := by
  obtain ⟨i, r, hi, hr⟩ := exists_stepOf h
  cases hr with
  | publish stage =>
    have hnone := (hs.agrees hi).unpublished (by simp [stage])
    have hne : key ≠ r.key := by
      intro he
      rw [he, hnone] at hkey
      cases hkey
    simpa [bindKey_of_ne _ _ hne] using hkey
  | _ => exact hkey

theorem Reachable.later {keys : List κ} (h : Reachable keys s)
    (hst : Relation.ReflTransGen Steps s t) : Reachable keys t := by
  induction hst with
  | refl => exact h
  | tail _ hstep ih => exact ih.step hstep

theorem Reachable.published_later {keys : List κ} (h : Reachable keys s)
    (hst : Relation.ReflTransGen Steps s t) {key : κ} {value : β}
    (hkey : s.published key = some value) : t.published key = some value := by
  induction hst with
  | refl => exact hkey
  | tail hsu hstep ih => exact (h.later hsu).consistent.published_step hstep ih

/-- A published key has no request left that is about to publish, and another has one at most. -/
theorem Consistent.successes_le_one (hs : s.Consistent) (key : κ) : s.successes key ≤ 1 := by
  have hbalanced := hs.balanced key
  have howing : ∀ r : Request κ β ε, (if r.key = key then r.pending else 0) ≠ 0 →
      r.key = key ∧ r.stage.isOwing = true := by
    intro r hr
    by_cases hkey : r.key = key
    · exact ⟨hkey, Request.isOwing_of_pending (by rwa [if_pos hkey] at hr)⟩
    · exact absurd (if_neg hkey) hr
  cases hpublished : s.published key with
  | none =>
    have hpending : (s.requests.map fun r => if r.key = key then r.pending else 0).sum ≤ 1 := by
      apply sum_map_le_one
      · intro r _
        have := r.pending_le_one
        by_cases hkey : r.key = key
        · rwa [if_pos hkey]
        · rw [if_neg hkey]
          omega
      · intro i j r q hi hj hr hq
        obtain ⟨hrkey, hrowing⟩ := howing r hr
        obtain ⟨hqkey, hqowing⟩ := howing q hq
        exact hs.owing_unique hi hj (hrkey.trans hqkey.symm) hrowing hqowing
    simp only [hpublished, Option.toList_none, List.length_nil] at hbalanced
    omega
  | some value =>
    have hpending : (s.requests.map fun r => if r.key = key then r.pending else 0).sum = 0 := by
      rw [List.sum_eq_zero_iff_forall_eq_nat]
      intro n hn
      obtain ⟨r, hr, rfl⟩ := List.mem_map.mp hn
      by_contra hne
      obtain ⟨hkey, hrowing⟩ := howing r hne
      obtain ⟨i, hi⟩ := List.mem_iff_getElem?.mp hr
      have hnone := (hs.agrees hi).unpublished hrowing
      rw [hkey, hpublished] at hnone
      cases hnone
    simp only [hpublished, Option.toList_some, List.length_singleton] at hbalanced
    omega

/-- In every course of events, no two requests build for one key at the same time, at most one build
of a key succeeds, a published value stays, and each value that is returned is the published one. -/
theorem Reachable.published_once {keys : List κ} (h : Reachable keys s) :
    (∀ (i j : Nat) (r q : Request κ β ε), s.requests[i]? = some r → s.requests[j]? = some q →
      r.key = q.key → r.stage.isBuilding = true → q.stage.isBuilding = true → i = j) ∧
    (∀ key, s.successes key ≤ 1) ∧
    (∀ key value t, s.published key = some value → Relation.ReflTransGen Steps s t →
      t.published key = some value) ∧
    (∀ r ∈ s.requests, ∀ value, r.stage = .finished (.ok value) →
      s.published r.key = some value) := by
  have hs := h.consistent
  refine ⟨?_, hs.successes_le_one, ?_, ?_⟩
  · intro i j r q hi hj hkey hr hq
    exact hs.owing_unique hi hj hkey (Stage.isOwing_of_isBuilding hr)
      (Stage.isOwing_of_isBuilding hq)
  · intro key value t hkey hst
    exact h.published_later hst hkey
  · intro r hr value hstage
    obtain ⟨i, hi⟩ := List.mem_iff_getElem?.mp hr
    exact (hs.agrees hi).settled value (by rw [hstage]; rfl)

/-- A first build fails, and the waiting request builds again under the same lock. The third request
has looked before the publication and fetches a lock after it, which is another lock. -/
def lateSchedule : List (Nat × Except String String) :=
  [0, 1, 2, 0, 1, 0, 0, 0].map (·, .error "") ++ [(0, .error "refused")] ++
  [0, 1, 1, 1].map (·, .error "") ++ [(1, .ok "built")] ++
  [1, 1, 2, 2, 2, 1, 2].map (·, .error "")

theorem late_request_gets_published : ∃ s : State Nat String String,
    Reachable [7, 7, 7] s ∧ s.nextLock = 2 ∧ s.published 7 = some "built" ∧ s.successes 7 ≤ 1 ∧
    (∀ r ∈ s.requests, ∀ value, r.stage = .finished (.ok value) →
      s.published r.key = some value) := by
  have h : Reachable [7, 7, 7] (((start [7, 7, 7]).follow lateSchedule).get (by decide)) :=
    reachable_of_follow .start (Option.some_get _).symm
  exact ⟨_, h, by decide, by decide, h.published_once.2.1 7, h.published_once.2.2.2⟩

end State

end DeliveryPipeline.Concurrent
