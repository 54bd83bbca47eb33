import DeliveryPipeline.Store

/-!
# Histories of a store

A store is filled again and again, from programs and from resource texts. A text that is not read
gives an error, and filling goes on with the store as it was.
-/
namespace DeliveryPipeline.Store

/-- One way to fill a store. -/
inductive Filling where
  | add (d : Descriptor)
  | extend (ds : List Descriptor)
  | replace (ds : List Descriptor)
  | extendFromText (text : String)
deriving DecidableEq

/-- Fill a store once: what it holds then, and the error if there is one. -/
def fill (s : Store) : Filling → Store × Option Error
  | .add d => (s.add d, none)
  | .extend ds => (s.extend ds, none)
  | .replace ds => (s.replace ds, none)
  | .extendFromText text =>
    match s.extendFromText text with
    | .ok s' => (s', none)
    | .error e => (s, some e)

/-- The store that is filled from nothing. -/
def after (history : List Filling) : Store :=
  history.foldl (fun s f => (s.fill f).1) {}

end DeliveryPipeline.Store
