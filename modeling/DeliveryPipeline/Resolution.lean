import DeliveryPipeline.Classification
import DeliveryPipeline.DescriptorTable
import DeliveryPipeline.Error

/-!
# Resolving the strategy

Every classified handler has to support the strategy of the pipeline. Where both strategies will do,
the requested one is taken, or streaming. A request never forces a strategy.
-/
namespace DeliveryPipeline

def DescriptorTable.requestedStrategy (t : DescriptorTable) : Except Error (Option Strategy) :=
  match t.globalParameter? strategyParameter with
  | none => .ok none
  | some value => (Strategy.parse value).map some

namespace Classification

def allSupport (c : Classification) (s : Strategy) : Bool :=
  c.capableOf s == c.size

/-- The only strategy that fits, unless another one is requested. -/
def onlyStrategy (only : Strategy) (requested : Option Strategy) : Except Error Strategy :=
  match requested with
  | some s => if s = only then .ok only else .error (.invalidOverride (.unsupported s only))
  | none => .ok only

def resolve (c : Classification) (requested : Option Strategy) : Except Error Strategy :=
  match c.allSupport .stream, c.allSupport .tree with
  | true, true => .ok (requested.getD .stream)
  | false, true => onlyStrategy .tree requested
  | true, false => onlyStrategy .stream requested
  | false, false =>
    .error (.ambiguousConfiguration
      (.noCommonStrategy (c.capableOf .stream) (c.capableOf .tree) c.size c.report))

end Classification

end DeliveryPipeline
