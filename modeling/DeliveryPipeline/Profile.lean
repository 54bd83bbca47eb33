import DeliveryPipeline.Text.Pieces

/-!
# Profiles

A profile set is a base profile with sub-profiles. A profile expression is a comma list of profile
names; it is universal when it names no profile or names `*`. How specific an expression is for a
profile set decides ties between descriptors of one target.
-/
namespace DeliveryPipeline

/-- The name that stands for every profile, and for every element in a selector. -/
def wildcardName : String := "*"

/-- A base profile and the profiles that it is a member of. -/
structure ProfileSet where
  base : String
  subProfiles : List String := []
deriving DecidableEq, Repr, Inhabited

namespace ProfileSet

def addSubProfile (p : ProfileSet) (name : String) : ProfileSet :=
  if name ∈ p.subProfiles then p else { p with subProfiles := p.subProfiles ++ [name] }

/-- A base profile with sub-profiles, of which repeats are dropped. -/
def ofNames (base : String) (subProfiles : List String) : ProfileSet :=
  subProfiles.foldl addSubProfile ⟨base, []⟩

def contains (p : ProfileSet) (name : String) : Bool :=
  p.base == name || p.subProfiles.contains name

/-- The base profile, followed by the sub-profiles in brackets if there are any. -/
def label (p : ProfileSet) : String :=
  if p.subProfiles.isEmpty then p.base
  else p.base ++ " [" ++ ", ".intercalate p.subProfiles ++ "]"

/-- The key under which the pipeline of a profile set is published: sub-profiles select
descriptors within a build, but share the pipeline of their base profile. -/
def cacheKey (p : ProfileSet) : String := p.base

end ProfileSet

inductive ProfileExpression where
  | universal
  | oneOf (names : List String)
deriving DecidableEq, Repr

namespace ProfileExpression

def parse (raw : String) : ProfileExpression :=
  let names := Text.commaList raw
  if names.isEmpty || names.contains wildcardName then universal else oneOf names

/-- Whether the expression is universal or names a profile of the set. -/
def appliesTo (e : ProfileExpression) (p : ProfileSet) : Bool :=
  match e with
  | universal => true
  | oneOf names => names.any p.contains

/-- 2 when the base profile is named, 1 when only a sub-profile is, and 0 otherwise. -/
def specificity (e : ProfileExpression) (p : ProfileSet) : Nat :=
  match e with
  | universal => 0
  | oneOf names =>
    if names.contains p.base then 2 else if names.any p.contains then 1 else 0

end ProfileExpression

end DeliveryPipeline
