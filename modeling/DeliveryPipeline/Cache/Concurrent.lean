/-!
# Concurrent requests to the pipeline cache

Requests for published values run side by side, and each is a sequence of atomic steps. A request
that finds nothing under its key takes the build lock of the key, looks again, and builds only then.
What a build gives is published if it succeeded, and the lock of the key is retired after that. A
lock is held by at most one request, and a request that wants a held lock cannot step. A state holds
all requests, so any choice of the next request to step is a possible course of events.
-/
namespace DeliveryPipeline.Concurrent

/-- Where a request stands. The lock that it has fetched is given by its number. -/
inductive Stage (β ε : Type) where
  /-- About to look up its key. -/
  | arriving
  /-- Has found nothing, and is about to fetch the lock of its key. -/
  | seeking
  /-- Has fetched a lock, and is about to acquire it. -/
  | queued (lock : Nat)
  /-- Holds the lock, and is about to look up its key again. -/
  | rechecking (lock : Nat)
  /-- Has found nothing again, and is about to start a build. -/
  | preparing (lock : Nat)
  | building (lock : Nat)
  /-- Its build has succeeded, and the value is about to be published. -/
  | publishing (lock : Nat) (value : β)
  /-- The value is published, and the lock of the key is about to be retired. -/
  | retiring (lock : Nat) (value : β)
  /-- Has its result, and is about to release the lock. -/
  | leaving (lock : Nat) (result : Except ε β)
  | finished (result : Except ε β)

namespace Stage

variable {β ε : Type}

/-- The lock that is held. -/
@[simp] def held? : Stage β ε → Option Nat
  | rechecking lock | preparing lock | building lock => some lock
  | publishing lock _ | retiring lock _ | leaving lock _ => some lock
  | arriving | seeking | queued _ | finished _ => none

/-- Whether the request is between its start and its return. -/
def isInside : Stage β ε → Bool
  | arriving | finished _ => false
  | _ => true

/-- Whether the request is between the start and the end of its build. -/
@[simp] def isBuilding : Stage β ε → Bool
  | building _ => true
  | _ => false

end Stage

structure Request (κ β ε : Type) where
  key : κ
  stage : Stage β ε := .arriving
  /-- What the builds of this request have given. -/
  outcomes : List (Except ε β) := []

def Request.successes {κ β ε : Type} (r : Request κ β ε) : Nat :=
  r.outcomes.countP Except.isOk

/-- The cache with all its requests. -/
structure State (κ β ε : Type) where
  requests : List (Request κ β ε)
  published : κ → Option β := fun _ => none
  /-- The build lock of each key, if there is one. -/
  locks : κ → Option Nat := fun _ => none
  /-- The number of the next new lock. -/
  nextLock : Nat := 0
  builds : Nat := 0

namespace State

variable {κ β ε : Type} [DecidableEq κ]

/-- The empty cache with requests that have not begun. -/
def start (keys : List κ) : State κ β ε :=
  { requests := keys.map fun key => { key } }

omit [DecidableEq κ] in
def isHeld (s : State κ β ε) (lock : Nat) : Bool :=
  s.requests.any fun r => r.stage.held? == some lock

def bindKey {α : Type} (f : κ → Option α) (key : κ) (a : Option α) : κ → Option α :=
  fun k => if k = key then a else f k

omit [DecidableEq κ] in
/-- Let the request with a number stand elsewhere. -/
def move (s : State κ β ε) (i : Nat) (r : Request κ β ε) (stage : Stage β ε) : State κ β ε :=
  { s with requests := s.requests.set i { r with stage } }

omit [DecidableEq κ] in
@[simp] theorem published_move (s : State κ β ε) (i : Nat) (r : Request κ β ε)
    (stage : Stage β ε) : (s.move i r stage).published = s.published := rfl

omit [DecidableEq κ] in
@[simp] theorem locks_move (s : State κ β ε) (i : Nat) (r : Request κ β ε)
    (stage : Stage β ε) : (s.move i r stage).locks = s.locks := rfl

omit [DecidableEq κ] in
@[simp] theorem nextLock_move (s : State κ β ε) (i : Nat) (r : Request κ β ε)
    (stage : Stage β ε) : (s.move i r stage).nextLock = s.nextLock := rfl

omit [DecidableEq κ] in
@[simp] theorem builds_move (s : State κ β ε) (i : Nat) (r : Request κ β ε)
    (stage : Stage β ε) : (s.move i r stage).builds = s.builds := rfl

theorem bindKey_self {α : Type} (f : κ → Option α) (key : κ) (a : Option α) :
    bindKey f key a key = a := by simp [bindKey]

theorem bindKey_of_ne {α : Type} (f : κ → Option α) {key k : κ} (a : Option α) (h : k ≠ key) :
    bindKey f key a k = f k := by simp [bindKey, h]

/-- One step of the request with a number, whose build gives `outcome` if it ends in this step. A
request that has returned, or waits for a held lock, makes no step. -/
def advance (s : State κ β ε) (i : Nat) (outcome : Except ε β) : Option (State κ β ε) :=
  match s.requests[i]? with
  | none => none
  | some r =>
    match r.stage with
    | .arriving =>
      match s.published r.key with
      | some value => some (s.move i r (.finished (.ok value)))
      | none => some (s.move i r .seeking)
    | .seeking =>
      match s.locks r.key with
      | some lock => some (s.move i r (.queued lock))
      | none =>
        some { s.move i r (.queued s.nextLock) with
          locks := bindKey s.locks r.key (some s.nextLock)
          nextLock := s.nextLock + 1 }
    | .queued lock => if s.isHeld lock then none else some (s.move i r (.rechecking lock))
    | .rechecking lock =>
      match s.published r.key with
      | some value => some (s.move i r (.leaving lock (.ok value)))
      | none => some (s.move i r (.preparing lock))
    | .preparing lock => some { s.move i r (.building lock) with builds := s.builds + 1 }
    | .building lock =>
      let r := { r with outcomes := r.outcomes ++ [outcome] }
      match outcome with
      | .ok value => some (s.move i r (.publishing lock value))
      | .error e => some (s.move i r (.leaving lock (.error e)))
    | .publishing lock value =>
      some { s.move i r (.retiring lock value) with
        published := bindKey s.published r.key (some value) }
    | .retiring lock value =>
      some { s.move i r (.leaving lock (.ok value)) with
        locks := bindKey s.locks r.key none }
    | .leaving _ result => some (s.move i r (.finished result))
    | .finished _ => none

/-- Let requests step one after another, each with what its build gives if it ends in the step. -/
def follow (s : State κ β ε) : List (Nat × Except ε β) → Option (State κ β ε)
  | [] => some s
  | (i, outcome) :: rest => (s.advance i outcome).bind fun t => t.follow rest

/-- Whether some step leads from one state to the next. -/
def Steps (s t : State κ β ε) : Prop :=
  ∃ i outcome, s.advance i outcome = some t

/-- The states that requests for some keys can reach from the empty cache. -/
inductive Reachable (keys : List κ) : State κ β ε → Prop where
  | start : Reachable keys (start keys)
  | step {s t : State κ β ε} : Reachable keys s → s.Steps t → Reachable keys t

end State

end DeliveryPipeline.Concurrent
