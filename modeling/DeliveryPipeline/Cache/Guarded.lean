import DeliveryPipeline.Cache.Concurrent

/-!
# Requests at guarded tables

The published values and the build locks stand in two tables that all requests share, and each table
has a lock of its own. So a step that uses a table falls into two: the request acquires the lock of
the table, and then takes the step and releases the lock with it. Requests may look up published
values side by side. Any other use of a table keeps all others away from it. A request that
publishes a value or retires its build lock waits for a table while it holds the build lock, and no
request that holds a table waits for a build lock.
-/
namespace DeliveryPipeline.Concurrent

/-- What a step does with a table. -/
inductive TableUse where
  /-- Look up a published value. -/
  | find
  /-- Put a value among the published ones. -/
  | publish
  /-- Look up, create or retire the build lock of a key. -/
  | relock
deriving DecidableEq, Repr

/-- Whether two uses are of the same table and cannot go on side by side. -/
def TableUse.excludes : TableUse → TableUse → Bool
  | find, publish | publish, find | publish, publish | relock, relock => true
  | _, _ => false

/-- The use of a table that the next step makes. -/
def Stage.use? {β ε : Type} : Stage β ε → Option TableUse
  | arriving | rechecking _ => some .find
  | seeking | retiring _ _ => some .relock
  | publishing _ _ => some .publish
  | queued _ | preparing _ | building _ | leaving _ _ | finished _ => none

/-- The cache with all its requests and the locks of its tables. -/
structure Guarded (κ β ε : Type) where
  state : State κ β ε
  /-- The requests that hold the lock of a table, with what they do there. -/
  holders : List (Nat × TableUse) := []

namespace Guarded

variable {κ β ε : Type}

def isHolder (g : Guarded κ β ε) (i : Nat) : Bool :=
  g.holders.any fun holder => holder.1 == i

/-- Whether the lock of a table is held by a request that keeps this use away. -/
def keepsAway (g : Guarded κ β ε) (use : TableUse) : Bool :=
  g.holders.any fun holder => holder.2.excludes use

def acquire (g : Guarded κ β ε) (i : Nat) (use : TableUse) : Guarded κ β ε :=
  { g with holders := (i, use) :: g.holders }

variable [DecidableEq κ]

def start (keys : List κ) : Guarded κ β ε :=
  { state := .start keys }

/-- The step of a request that needs no table, or holds it. The lock of the table is released. -/
def act (g : Guarded κ β ε) (i : Nat) (outcome : Except ε β) : Option (Guarded κ β ε) :=
  (g.state.advance i outcome).map fun s => ⟨s, g.holders.filter fun holder => holder.1 != i⟩

/-- One step of the request with a number. A request that needs a table acquires its lock first, and
makes no step while another one keeps it away. -/
def advance (g : Guarded κ β ε) (i : Nat) (outcome : Except ε β) : Option (Guarded κ β ε) :=
  match g.state.requests[i]?.bind fun r => r.stage.use? with
  | none => g.act i outcome
  | some use =>
    if g.isHolder i then g.act i outcome
    else if g.keepsAway use then none
    else some (g.acquire i use)

/-- Let requests step one after another, each with what its build gives if it ends in the step. -/
def follow (g : Guarded κ β ε) : List (Nat × Except ε β) → Option (Guarded κ β ε)
  | [] => some g
  | (i, outcome) :: rest => (g.advance i outcome).bind fun t => t.follow rest

/-- The states that requests for some keys can reach from the empty cache. -/
inductive Reachable (keys : List κ) : Guarded κ β ε → Prop where
  | start : Reachable keys (start keys)
  | step {g t : Guarded κ β ε} {i : Nat} {outcome : Except ε β} : Reachable keys g →
    g.advance i outcome = some t → Reachable keys t

end Guarded

end DeliveryPipeline.Concurrent
