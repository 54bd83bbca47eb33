import DeliveryPipeline.Descriptor

/-!
# Specificity

How specific a descriptor is for a profile set: first by the kind of its selector, then by how its
profile expression names the profiles, then by the depth of its path. Sorting puts the most specific
first and keeps the order of equals.
-/
namespace DeliveryPipeline

/-- The rank of a descriptor, compared field by field. -/
structure Specificity where
  selector : Nat
  profile : Nat
  depth : Nat
deriving DecidableEq, Repr

namespace Specificity

/-- A certain element outranks a category, which outranks all else. -/
def selectorRank (s : Selector) : Nat :=
  match s with
  | .category _ => 1
  | s => if s.isExact then 2 else 0

def of (p : ProfileSet) (d : Descriptor) : Specificity where
  selector := selectorRank d.parsedSelector
  profile := d.profileExpression.specificity p
  depth := d.parsedSelector.depth

/-- Ranks compare by the first field in which they differ. -/
def compare (x y : Specificity) : Ordering :=
  (Ord.compare x.selector y.selector).then <|
    (Ord.compare x.profile y.profile).then (Ord.compare x.depth y.depth)

end Specificity

/-- The more specific of two descriptors is the lesser. -/
def compareDescriptors (p : ProfileSet) (a b : Descriptor) : Ordering :=
  (Specificity.of p b).compare (Specificity.of p a)

def sortBySpecificity {α : Type} (p : ProfileSet) (descriptor : α → Descriptor) (items : List α) :
    List α :=
  items.mergeSort fun x y =>
    ((Specificity.of p (descriptor y)).compare (Specificity.of p (descriptor x))).isLE

end DeliveryPipeline
