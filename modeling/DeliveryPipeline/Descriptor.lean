import DeliveryPipeline.Dictionary
import DeliveryPipeline.Selector

/-!
# Descriptors

A descriptor is the declarative record of one resource: where it applies, what it is, and with
which parameters. Two descriptors with the same fields are the same descriptor.
-/
namespace DeliveryPipeline

abbrev Parameters := Dictionary String

/-- One declared resource. -/
structure Descriptor where
  /-- Where the resource applies, as written. -/
  selector : String := ""
  /-- The resource type, as declared. -/
  declaredType : Option String := none
  /-- A native handler path, a file name or a payload. -/
  resource : Option String := none
  parameters : Parameters := Dictionary.empty
  /-- The profiles that it applies to, as written. -/
  profile : String := ""
deriving DecidableEq, Inhabited

namespace Descriptor

def parsedSelector (d : Descriptor) : Selector :=
  Selector.parse d.selector

def profileExpression (d : Descriptor) : ProfileExpression :=
  ProfileExpression.parse d.profile

def parameter? (d : Descriptor) (name : String) : Option String :=
  d.parameters.get? name

def setParameter (d : Descriptor) (name value : String) : Descriptor :=
  { d with parameters := d.parameters.set name value }

/-- The pieces between the double colons, found from the left. -/
def colonSteps : List Char → List (List Char)
  | [] => [[]]
  | ':' :: ':' :: rest => [] :: colonSteps rest
  | c :: rest =>
    match colonSteps rest with
    | [] => [[c]]
    | step :: steps => (c :: step) :: steps

/-- An ASCII letter or an underscore, followed by such characters and ASCII digits. -/
def isIdentifier : List Char → Bool
  | [] => false
  | c :: rest => (c.isAlpha || c == '_') && rest.all fun x => x.isAlphanum || x == '_'

/-- Whether a text is a native handler path: two or more identifiers joined by double colons. -/
def isNativePath (s : String) : Bool :=
  let steps := colonSteps s.toList
  2 ≤ steps.length && steps.all isIdentifier

def isNativeReference (d : Descriptor) : Bool :=
  d.resource.any fun r => isNativePath (Text.trim r)

/-- The extension of the file that a path ends in, in lower case. The file needs a stem. -/
def fileExtension? (path : String) : Option String :=
  let file := path.toList.reverse.takeWhile (· != '/')
  let suffix := (file.takeWhile (· != '.')).reverse
  let stem := (file.dropWhile (· != '.')).drop 1
  if suffix.isEmpty || stem.isEmpty then none else some (String.ofList suffix).toLower

/-- The type that a resource shows by itself: the extension of a file name, and nothing when it
holds a blank or a double colon. -/
def derivedType? (resource : String) : Option String :=
  let text := Text.trim resource
  if text.toList.any Text.isBlank || 2 ≤ (colonSteps text.toList).length then none
  else fileExtension? text

/-- The declared type if it is not blank, else the type that the resource shows. -/
def resourceType? (d : Descriptor) : Option String :=
  match (d.declaredType.map Text.trim).filter (· ≠ "") with
  | some declared => some declared
  | none => d.resource.bind derivedType?

/-- The fields in one line. At most sixty characters of the resource are shown. -/
def label (d : Descriptor) : String :=
  let resource := match d.resource with
    | some r => " resource=" ++ String.ofList (r.toList.take 60)
    | none => ""
  let declared := match d.declaredType with
    | some t => " type=" ++ t
    | none => ""
  let profile := if d.profile = "" then "" else " profile=" ++ d.profile
  "selector=" ++ d.selector ++ resource ++ declared ++ profile

end Descriptor

end DeliveryPipeline
