/-!
# Groupings

A grouping lists values under keys. Keys keep the order in which they were first used, and the
values of a key the order in which they were added. Turned around, a grouping lists the keys of each
value.
-/
namespace DeliveryPipeline

structure Grouping (κ α : Type) where
  groups : List (κ × List α)
deriving DecidableEq, Repr

namespace Grouping

variable {κ α : Type} [DecidableEq κ]

def empty : Grouping κ α := ⟨[]⟩

instance : Inhabited (Grouping κ α) := ⟨empty⟩

def get (g : Grouping κ α) (key : κ) : List α :=
  (g.groups.lookup key).getD []

/-- Add a value to the list under a key, or start that list. -/
def pushTo (key : κ) (value : α) : List (κ × List α) → List (κ × List α)
  | [] => [(key, [value])]
  | (k, values) :: rest =>
    if k = key then (k, values ++ [value]) :: rest else (k, values) :: pushTo key value rest

def push (g : Grouping κ α) (key : κ) (value : α) : Grouping κ α :=
  ⟨pushTo key value g.groups⟩

/-- The keys in the order of first use. -/
def keys (g : Grouping κ α) : List κ :=
  g.groups.map (·.1)

def size (g : Grouping κ α) : Nat :=
  g.groups.length

def isEmpty (g : Grouping κ α) : Bool :=
  g.groups.isEmpty

/-- Each value with its key, group after group. -/
def pairs (g : Grouping κ α) : List (κ × α) :=
  g.groups.flatMap fun group => group.2.map fun value => (group.1, value)

/-- Add values to the lists under their keys, one after another. -/
def ofPairs (ps : List (κ × α)) : Grouping κ α :=
  ps.foldl (fun g p => g.push p.1 p.2) empty

/-- The keys under each value. -/
def transpose [DecidableEq α] (g : Grouping κ α) : Grouping α κ :=
  ofPairs (g.pairs.map Prod.swap)

def mapLists (f : List α → List α) (g : Grouping κ α) : Grouping κ α :=
  ⟨g.groups.map fun group => (group.1, f group.2)⟩

@[simp] theorem get_empty (key : κ) : (empty : Grouping κ α).get key = [] := rfl

theorem lookup_pushTo (key other : κ) (value : α) (groups : List (κ × List α)) :
    ((pushTo key value groups).lookup other).getD [] =
      if other = key then (groups.lookup other).getD [] ++ [value]
      else (groups.lookup other).getD [] := by
  induction groups with
  | nil =>
    by_cases h : other = key
    · simp [pushTo, h]
    · simp [pushTo, List.lookup_cons, h, beq_eq_false_iff_ne.2 h]
  | cons group rest ih =>
    obtain ⟨k, values⟩ := group
    by_cases hk : k = key
    · subst hk
      by_cases h : other = k
      · simp [pushTo, h]
      · simp [pushTo, List.lookup_cons, h, beq_eq_false_iff_ne.2 h]
    · by_cases h : other = k
      · subst h; simp [pushTo, hk]
      · simpa [pushTo, List.lookup_cons, hk, beq_eq_false_iff_ne.2 h] using ih

theorem get_push (g : Grouping κ α) (key other : κ) (value : α) :
    (g.push key value).get other = if other = key then g.get other ++ [value] else g.get other :=
  lookup_pushTo key other value g.groups

theorem keys_push (g : Grouping κ α) (key : κ) (value : α) :
    (g.push key value).keys = if key ∈ g.keys then g.keys else g.keys ++ [key] := by
  obtain ⟨groups⟩ := g
  simp only [push, keys]
  induction groups with
  | nil => simp [pushTo]
  | cons group rest ih =>
    by_cases h : group.1 = key
    · simp [pushTo, h]
    · have h' : key ≠ group.1 := Ne.symm h
      by_cases hm : key ∈ rest.map (·.1)
      · simp_all [pushTo]
      · simp_all [pushTo]

omit [DecidableEq κ] in
@[simp] theorem keys_mapLists (f : List α → List α) (g : Grouping κ α) :
    (g.mapLists f).keys = g.keys := by
  simp [mapLists, keys]

end Grouping

end DeliveryPipeline
