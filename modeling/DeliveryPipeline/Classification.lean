import DeliveryPipeline.Capabilities
import DeliveryPipeline.Grouping
import DeliveryPipeline.Specificity

/-!
# Classified handlers

A classification records each handler once, by its identity. A handler with a role is classified: it
is bound to its targets in the role tables of every strategy that it supports. A handler without a
role is only remembered.
-/
namespace DeliveryPipeline

/-- What makes two handlers the same. -/
inductive HandlerId where
  /-- Handed in from outside. -/
  | given (n : Nat)
  /-- Made for the creation with this number. -/
  | created (n : Nat)
  /-- Registered by the handler of the creation with this number, which counts them. -/
  | registered (n index : Nat)
deriving DecidableEq, Repr

structure Handler where
  id : HandlerId
  name : String
  capabilities : Capabilities
deriving DecidableEq

/-- A handler with the descriptor that it was created from. -/
structure Binding where
  handler : Handler
  descriptor : Descriptor
deriving DecidableEq

structure Entry where
  handler : Handler
  descriptor : Descriptor
  targets : List String
deriving DecidableEq

/-- The name and the descriptor of a handler, behind a mark for each strategy that it supports. -/
def Entry.reportLine (e : Entry) : String :=
  let mark (s : Strategy) : String := if e.handler.capabilities.supports s then "x" else " "
  "     " ++ mark .tree ++ "      " ++ mark .stream ++ "     " ++ e.handler.name ++ " (" ++
    e.descriptor.label ++ ")"

/-- The handlers for each role and target, in the order of application. -/
abbrev RoleTables := Grouping (Role × String) Binding

namespace RoleTables

def handlers (t : RoleTables) (r : Role) (target : String) : List Binding :=
  t.get (r, target)

/-- The targets of a role with their handlers, in the order of first use. -/
def table (t : RoleTables) (r : Role) : List (String × List Binding) :=
  (t.groups.filter fun g => g.1.1 == r).map fun g => (g.1.2, g.2)

/-- The roles that have handlers, in the order of the phases, with their tables. -/
def roles (t : RoleTables) : List (Role × List (String × List Binding)) :=
  (Role.all.map fun r => (r, t.table r)).filter fun rt => !rt.2.isEmpty

def bindingCount (t : RoleTables) : Nat :=
  t.pairs.length

/-- Bind a handler under each of the given roles and targets. -/
def bindAll (t : RoleTables) (keys : List (Role × String)) (b : Binding) : RoleTables :=
  keys.foldl (fun t key => t.push key b) t

/-- Sort every list by the descriptors' descending rank. -/
def sort (t : RoleTables) (p : ProfileSet) : RoleTables :=
  t.mapLists (sortBySpecificity p Binding.descriptor)

end RoleTables

/-- The roles and targets under which a handler is bound for a strategy. -/
def Handler.places (h : Handler) (s : Strategy) (targets : List String) : List (Role × String) :=
  if h.capabilities.supports s then
    h.capabilities.roles.flatMap fun r => targets.map fun t => (r.under s, t)
  else []

/-- The classified handlers of a build with their role tables, and the handlers without a role. -/
structure Classification where
  entries : List Entry := []
  unclassified : List Binding := []
  stream : RoleTables := Grouping.empty
  tree : RoleTables := Grouping.empty
deriving DecidableEq

namespace Classification

instance : Inhabited Classification := ⟨{}⟩

def contains (c : Classification) (id : HandlerId) : Bool :=
  c.entries.any (·.handler.id == id) || c.unclassified.any (·.handler.id == id)

def classifies (c : Classification) (h : Handler) : Bool :=
  !c.contains h.id && !h.capabilities.roles.isEmpty

/-- Record a handler with its descriptor and targets, unless it is recorded. -/
def add (c : Classification) (h : Handler) (d : Descriptor) (targets : List String) :
    Classification :=
  if c.contains h.id then c
  else if h.capabilities.roles.isEmpty then
    { c with unclassified := c.unclassified ++ [⟨h, d⟩] }
  else
    { entries := c.entries ++ [⟨h, d, targets⟩]
      unclassified := c.unclassified
      stream := c.stream.bindAll (h.places .stream targets) ⟨h, d⟩
      tree := c.tree.bindAll (h.places .tree targets) ⟨h, d⟩ }

def merge (c other : Classification) : Classification :=
  other.unclassified.foldl (fun c b => c.add b.handler b.descriptor [])
    (other.entries.foldl (fun c e => c.add e.handler e.descriptor e.targets) c)

def size (c : Classification) : Nat :=
  c.entries.length

def isEmpty (c : Classification) : Bool :=
  c.entries.isEmpty

/-- The number of classified handlers that support a strategy. -/
def capableOf (c : Classification) (s : Strategy) : Nat :=
  c.entries.countP fun e => e.handler.capabilities.supports s

def tables (c : Classification) : Strategy → RoleTables
  | .stream => c.stream
  | .tree => c.tree

def sort (c : Classification) (p : ProfileSet) : Classification :=
  { c with stream := c.stream.sort p, tree := c.tree.sort p }

/-- A heading, and the line of each classified handler. -/
def reportLines (c : Classification) : List String :=
  "    tree  stream  handler  ('x' = supported)" ::
    ("    " ++ String.ofList (List.replicate 60 '-')) :: c.entries.map Entry.reportLine

def report (c : Classification) : String :=
  Text.unlines c.reportLines

end Classification

end DeliveryPipeline
