/-!
# Data values

Values as text formats carry them: plain values, lists, and records of named fields. A structure is
read from a record by the names of its fields, or from a list by their positions.
-/
namespace DeliveryPipeline

inductive Value where
  | null
  | boolean (b : Bool)
  | integer (n : Int)
  /-- A number that is not an integer, as written. -/
  | decimal (literal : String)
  | text (s : String)
  | list (items : List Value)
  | record (fields : List (String × Value))
deriving Inhabited, BEq

namespace Value

/-- One field of a structure, `some none` when it is left out. A record has it under one of its
names, and refuses two of them; a list has it at its position. -/
def field? (v : Value) (position : Nat) (names : List String) : Option (Option Value) :=
  match v with
  | record fields =>
    match fields.filter fun f => names.contains f.1 with
    | [] => some none
    | [f] => some (some f.2)
    | _ => none
  | list items => some items[position]?
  | _ => none

def text? : Value → Option String
  | text s => some s
  | _ => none

def texts? : Value → Option (List String)
  | list items => items.mapM text?
  | _ => none

def natural? : Value → Option Nat
  | integer n => if 0 ≤ n then some n.toNat else none
  | _ => none

/-- A field that takes a default when it is left out. -/
def withDefault {α : Type} (read : Value → Option α) (byDefault : α) : Option Value → Option α
  | none => some byDefault
  | some v => read v

/-- A text that may be left out or null. -/
def optionalText? : Option Value → Option (Option String)
  | none | some null => some none
  | some (text s) => some (some s)
  | _ => none

end Value

end DeliveryPipeline
