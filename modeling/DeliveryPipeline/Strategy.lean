import DeliveryPipeline.Text.Pieces

/-!
# Execution strategies

A pipeline runs in one of two ways: in a single pass over events, or on a whole tree in memory.
-/
namespace DeliveryPipeline

inductive Strategy where
  | stream
  | tree
deriving DecidableEq, Repr

namespace Strategy

def name : Strategy → String
  | stream => "stream"
  | tree => "tree"

/-- The strategy that a text names, in any ASCII case, blanks around it aside. -/
def parse? (raw : String) : Option Strategy :=
  let text := (Text.trim raw).toLower
  if text = "stream" then some stream else if text = "tree" then some tree else none

end Strategy

def strategyParameter : String := "stream.filter.type"

end DeliveryPipeline
