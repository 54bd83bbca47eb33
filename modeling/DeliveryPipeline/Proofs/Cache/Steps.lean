import DeliveryPipeline.Cache.Concurrent
import Mathlib.Algebra.GroupWithZero.Nat
import Mathlib.Tactic.ByContra

/-!
# The steps of concurrent requests

A step moves one request and leaves the others where they stand. What it can do, and under which
guard, is listed once, so a proof about all steps has one case for each thing that can happen.
Numbers that are summed over all requests change with the request that moved.
-/
namespace DeliveryPipeline.Concurrent.State

variable {κ β ε : Type} [DecidableEq κ] {s t : State κ β ε} {i : Nat} {r q : Request κ β ε}

/-- What one step of the request `r` with the number `i` can do. -/
inductive StepOf (s : State κ β ε) (i : Nat) (r : Request κ β ε) : State κ β ε → Prop where
  | find {value : β} (stage : r.stage = .arriving) (found : s.published r.key = some value) :
      StepOf s i r (s.move i r (.finished (.ok value)))
  | miss (stage : r.stage = .arriving) (absent : s.published r.key = none) :
      StepOf s i r (s.move i r .seeking)
  | fetch {lock : Nat} (stage : r.stage = .seeking) (present : s.locks r.key = some lock) :
      StepOf s i r (s.move i r (.queued lock))
  | create (stage : r.stage = .seeking) (absent : s.locks r.key = none) :
      StepOf s i r { s.move i r (.queued s.nextLock) with
        locks := bindKey s.locks r.key (some s.nextLock)
        nextLock := s.nextLock + 1 }
  | acquire {lock : Nat} (stage : r.stage = .queued lock) (free : s.isHeld lock = false) :
      StepOf s i r (s.move i r (.rechecking lock))
  | findAgain {lock : Nat} {value : β} (stage : r.stage = .rechecking lock)
      (found : s.published r.key = some value) :
      StepOf s i r (s.move i r (.leaving lock (.ok value)))
  | missAgain {lock : Nat} (stage : r.stage = .rechecking lock)
      (absent : s.published r.key = none) :
      StepOf s i r (s.move i r (.preparing lock))
  | begin {lock : Nat} (stage : r.stage = .preparing lock) :
      StepOf s i r { s.move i r (.building lock) with builds := s.builds + 1 }
  | succeed {lock : Nat} (value : β) (stage : r.stage = .building lock) :
      StepOf s i r
        (s.move i { r with outcomes := r.outcomes ++ [.ok value] } (.publishing lock value))
  | fail {lock : Nat} (e : ε) (stage : r.stage = .building lock) :
      StepOf s i r
        (s.move i { r with outcomes := r.outcomes ++ [.error e] } (.leaving lock (.error e)))
  | publish {lock : Nat} {value : β} (stage : r.stage = .publishing lock value) :
      StepOf s i r { s.move i r (.retiring lock value) with
        published := bindKey s.published r.key (some value) }
  | retire {lock : Nat} {value : β} (stage : r.stage = .retiring lock value) :
      StepOf s i r { s.move i r (.leaving lock (.ok value)) with
        locks := bindKey s.locks r.key none }
  | release {lock : Nat} {result : Except ε β} (stage : r.stage = .leaving lock result) :
      StepOf s i r (s.move i r (.finished result))

theorem stepOf_of_advance {outcome : Except ε β} (h : s.advance i outcome = some t) :
    ∃ r, s.requests[i]? = some r ∧ StepOf s i r t := by
  unfold advance at h
  cases hr : s.requests[i]? with
  | none => simp [hr] at h
  | some r =>
    refine ⟨r, rfl, ?_⟩
    simp only [hr] at h
    cases hstage : r.stage with
    | arriving =>
      simp only [hstage] at h
      cases hp : s.published r.key with
      | none => simp only [hp, Option.some.injEq] at h; exact h ▸ .miss hstage hp
      | some value => simp only [hp, Option.some.injEq] at h; exact h ▸ .find hstage hp
    | seeking =>
      simp only [hstage] at h
      cases hl : s.locks r.key with
      | none => simp only [hl, Option.some.injEq] at h; exact h ▸ .create hstage hl
      | some lock => simp only [hl, Option.some.injEq] at h; exact h ▸ .fetch hstage hl
    | queued lock =>
      cases hfree : s.isHeld lock with
      | true => simp [hstage, hfree] at h
      | false => simp only [hstage, hfree] at h; cases h; exact .acquire hstage hfree
    | rechecking lock =>
      simp only [hstage] at h
      cases hp : s.published r.key with
      | none => simp only [hp, Option.some.injEq] at h; exact h ▸ .missAgain hstage hp
      | some value => simp only [hp, Option.some.injEq] at h; exact h ▸ .findAgain hstage hp
    | preparing lock => simp only [hstage, Option.some.injEq] at h; exact h ▸ .begin hstage
    | building lock =>
      cases outcome with
      | ok value => simp only [hstage, Option.some.injEq] at h; exact h ▸ .succeed value hstage
      | error e => simp only [hstage, Option.some.injEq] at h; exact h ▸ .fail e hstage
    | publishing lock value =>
      simp only [hstage, Option.some.injEq] at h; exact h ▸ .publish hstage
    | retiring lock value => simp only [hstage, Option.some.injEq] at h; exact h ▸ .retire hstage
    | leaving lock result => simp only [hstage, Option.some.injEq] at h; exact h ▸ .release hstage
    | finished result => simp [hstage] at h

theorem exists_stepOf (h : s.Steps t) : ∃ i r, s.requests[i]? = some r ∧ StepOf s i r t := by
  obtain ⟨i, outcome, h⟩ := h
  exact ⟨i, stepOf_of_advance h⟩

omit [DecidableEq κ] in
/-- After a request has moved, the requests are the moved one and the others. -/
theorem getElem?_set_eq_some {i j : Nat} {rs : List (Request κ β ε)} (hi : rs[i]? = some r)
    (q r' : Request κ β ε) :
    (rs.set i r')[j]? = some q ↔ (j = i ∧ q = r') ∨ (j ≠ i ∧ rs[j]? = some q) := by
  have hlt : i < rs.length := by
    by_contra h
    simp [List.getElem?_eq_none (Nat.le_of_not_lt h)] at hi
  by_cases hj : j = i
  · subst j
    simp [List.getElem?_set_self hlt, eq_comm]
  · simp [List.getElem?_set_ne (Ne.symm hj), hj]

/-- How many builds for a key have succeeded so far. -/
def successes (s : State κ β ε) (key : κ) : Nat :=
  (s.requests.map fun r => if r.key = key then r.successes else 0).sum

omit [DecidableEq κ] in
/-- A sum over all requests changes by what the moved request contributes. -/
theorem sum_map_set (f : Request κ β ε → Nat) {rs : List (Request κ β ε)} (hi : rs[i]? = some r)
    (r' : Request κ β ε) : ((rs.set i r').map f).sum + f r = (rs.map f).sum + f r' := by
  induction rs generalizing i with
  | nil => simp at hi
  | cons head rest ih =>
    cases i with
    | zero =>
      have : head = r := by simpa using hi
      subst this
      simp only [List.set_cons_zero, List.map_cons, List.sum_cons]
      omega
    | succ i =>
      have hh := ih (i := i) (by simpa using hi)
      simp only [List.set_cons_succ, List.map_cons, List.sum_cons]
      omega

/-- A sum of numbers up to one, of which at most one is not zero. -/
theorem sum_map_le_one {α : Type} {f : α → Nat} {l : List α} (hle : ∀ a ∈ l, f a ≤ 1)
    (hunique : ∀ (i j : Nat) (a b : α), l[i]? = some a → l[j]? = some b → f a ≠ 0 → f b ≠ 0 →
      i = j) : (l.map f).sum ≤ 1 := by
  induction l with
  | nil => simp
  | cons head rest ih =>
    simp only [List.map_cons, List.sum_cons]
    by_cases hhead : f head = 0
    · have hrest := ih (fun a ha => hle a (List.mem_cons_of_mem head ha)) (by
        intro i j a b hi hj ha hb
        have hij := hunique (i + 1) (j + 1) a b (by simpa using hi) (by simpa using hj) ha hb
        omega)
      omega
    · have hzero : (rest.map f).sum = 0 := by
        rw [List.sum_eq_zero_iff_forall_eq_nat]
        intro n hn
        obtain ⟨a, ha, rfl⟩ := List.mem_map.mp hn
        obtain ⟨j, hj⟩ := List.mem_iff_getElem?.mp ha
        by_contra hne
        have h0 := hunique 0 (j + 1) head a (by simp) (by simpa using hj) hhead hne
        omega
      have := hle head (by simp)
      omega

omit [DecidableEq κ] in
theorem isHeld_iff {lock : Nat} :
    s.isHeld lock = true ↔ ∃ (j : Nat) (q : Request κ β ε),
      s.requests[j]? = some q ∧ q.stage.held? = some lock := by
  simp only [isHeld, List.any_eq_true, beq_iff_eq]
  constructor
  · rintro ⟨q, hq, hl⟩
    obtain ⟨j, hj⟩ := List.mem_iff_getElem?.mp hq
    exact ⟨j, q, hj, hl⟩
  · rintro ⟨j, q, hj, hl⟩
    exact ⟨q, List.mem_of_getElem? hj, hl⟩

theorem reachable_of_follow {keys : List κ} (hs : Reachable keys s)
    {schedule : List (Nat × Except ε β)} (h : s.follow schedule = some t) : Reachable keys t := by
  induction schedule generalizing s with
  | nil => simp only [follow, Option.some.injEq] at h; exact h ▸ hs
  | cons choice rest ih =>
    obtain ⟨u, hu, hrest⟩ := Option.bind_eq_some_iff.mp h
    exact ih (hs.step ⟨choice.1, choice.2, hu⟩) hrest

end DeliveryPipeline.Concurrent.State
