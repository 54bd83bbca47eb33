import DeliveryPipeline.Role
import DeliveryPipeline.Strategy

/-!
# Capabilities

A handler states up front which strategies it runs under, which roles it fills, and whether it
yields descriptors or registers further handlers when it is created. No role is stated twice.
-/
namespace DeliveryPipeline

/-- The role that a declared role becomes under a strategy. -/
def Role.under (s : Strategy) (r : Role) : Role :=
  match s with
  | .stream => r.inStreamMode
  | .tree => r

structure Capabilities where
  stream : Bool := false
  tree : Bool := false
  roles : List Role := []
  selfExpanding : Bool := false
  selfRegistering : Bool := false
  roles_nodup : roles.Nodup := by exact List.Pairwise.nil
deriving DecidableEq

namespace Capabilities

def empty : Capabilities := {}

instance : Inhabited Capabilities := ⟨empty⟩

def supports (c : Capabilities) : Strategy → Bool
  | .stream => c.stream
  | .tree => c.tree

def addStrategy (c : Capabilities) : Strategy → Capabilities
  | .stream => { c with stream := true }
  | .tree => { c with tree := true }

/-- Fill a role, after those stated before. -/
def addRole (c : Capabilities) (r : Role) : Capabilities :=
  if h : r ∈ c.roles then c
  else { c with
    roles := c.roles ++ [r]
    roles_nodup := List.nodup_append.2
      ⟨c.roles_nodup, by simp, fun a ha b hb => by
        rintro rfl; exact h (List.mem_singleton.1 hb ▸ ha)⟩ }

end Capabilities

end DeliveryPipeline
