import DeliveryPipeline.Profile

/-!
# Selectors

A selector names the target that a descriptor applies to: the reserved target of the global
parameters, every element, a category of schema elements, or an element at the end of a path.
Only a category selector, and a path without steps, has no target of its own.
-/
namespace DeliveryPipeline

def globalTarget : String := "global-parameters"

def schemaTarget : String := "schema"

inductive Selector where
  | globals
  | wildcard
  /-- The elements that the schema puts into a category. -/
  | category (name : String)
  /-- The element at the end of a path of element names. -/
  | element (path : List String)
deriving DecidableEq, Repr

namespace Selector

/-- Steps of a path stand apart by blanks or slashes. -/
def isSeparator (c : Char) : Bool :=
  Text.isBlank c || c == '/'

/-- Read a selector. The blank text selects every element, the reserved name is read in any ASCII
case, and a path that is the single step `*` is the wildcard. -/
def parse (raw : String) : Selector :=
  let text := Text.trim raw
  if text = "" ∨ text = wildcardName then wildcard
  else if Text.sameIgnoringCase text globalTarget then globals
  else match Text.after? "macro:" text with
    | some name => category (Text.trim name)
    | none =>
      let path := Text.words isSeparator text
      if path = [wildcardName] then wildcard else element path

/-- The one target that the selector names, if it names one. -/
def target? : Selector → Option String
  | globals => some globalTarget
  | wildcard => some wildcardName
  | category _ => none
  | element path => path.getLast?

def depth : Selector → Nat
  | element path => path.length
  | _ => 0

def isExact : Selector → Bool
  | element path => path.getLast?.any (· ≠ wildcardName)
  | _ => false

end Selector

end DeliveryPipeline
