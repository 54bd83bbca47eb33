import DeliveryPipeline.Text.Pieces

/-!
# Schemas

A schema sorts element names into eight categories, each of them the complement of another. Category
selectors are expanded through it.
-/
namespace DeliveryPipeline

inductive Category where
  | empty
  | notEmpty
  | any
  | notAny
  | mixed
  | notMixed
  | textOnly
  | notTextOnly
deriving DecidableEq, Repr

namespace Category

def all : List Category :=
  [empty, notEmpty, any, notAny, mixed, notMixed, textOnly, notTextOnly]

def name : Category → String
  | empty => "empty"
  | notEmpty => "not-empty"
  | any => "any"
  | notAny => "not-any"
  | mixed => "mixed"
  | notMixed => "not-mixed"
  | textOnly => "text-only"
  | notTextOnly => "not-text-only"

/-- The category that a text names, blanks around it aside. -/
def parse? (raw : String) : Option Category :=
  all.find? fun c => c.name == Text.trim raw

end Category

/-- The element names of each category, in declaration order. -/
structure Schema where
  classify : Category → List String

end DeliveryPipeline
