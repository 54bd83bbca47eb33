import DeliveryPipeline.Error
import DeliveryPipeline.Store
import DeliveryPipeline.Toml.Document
import DeliveryPipeline.Toml.Writer

/-!
# Settings

The settings of a user are kept in a TOML file below the home directory. What the file leaves out
takes its default, and so does everything when there is no file.
-/
namespace DeliveryPipeline

/-- What a plan uses unless the command says otherwise. -/
structure Settings where
  profile : String := "default"
  subProfiles : List String := []
  /-- The most descriptors that handlers may yield in one build. -/
  maxExpansions : Nat := 10000
  resources : List String := []
deriving DecidableEq, Repr

namespace Settings

instance : Inhabited Settings := ⟨{}⟩

def withDefaults? (s : Settings) (v : Value) : Option Settings := do
  let profile ← v.field? 0 ["profile"]
  let subProfiles ← v.field? 1 ["sub_profiles"]
  return { s with
    profile := ← Value.withDefault Value.text? s.profile profile
    subProfiles := ← Value.withDefault Value.texts? s.subProfiles subProfiles }

def withBuild? (s : Settings) (v : Value) : Option Settings := do
  let maxExpansions ← v.field? 0 ["max_expansions"]
  let resources ← v.field? 1 ["resources"]
  return { s with
    maxExpansions := ← Value.withDefault Value.natural? s.maxExpansions maxExpansions
    resources := ← Value.withDefault Value.texts? s.resources resources }

def ofValue? (v : Value) : Option Settings := do
  let defaults ← v.field? 0 ["defaults"]
  let build ← v.field? 1 ["build"]
  let s ← defaults.elim (some {}) (withDefaults? {})
  build.elim (some s) s.withBuild?

def ofToml (text : String) : Except Toml.Fault Settings := do
  match ofValue? (← Toml.parse text) with
  | some s => return s
  | none => throw .wrongShape

def toValue (s : Settings) : Value :=
  .record [
    ("defaults", .record [
      ("profile", .text s.profile),
      ("sub_profiles", .list (s.subProfiles.map .text))]),
    ("build", .record [
      ("max_expansions", .integer s.maxExpansions),
      ("resources", .list (s.resources.map .text))])]

def toToml (s : Settings) : String :=
  "[defaults]\n" ++
  "profile = " ++ Toml.writeText s.profile ++ "\n" ++
  "sub_profiles = " ++ Toml.writeTexts s.subProfiles ++ "\n\n" ++
  "[build]\n" ++
  "max_expansions = " ++ toString s.maxExpansions ++ "\n" ++
  "resources = " ++ Toml.writeTexts s.resources ++ "\n"

def directory (home : String) : String :=
  (if home.endsWith "/" then home else home ++ "/") ++ ".deliverykit"

def file (home : String) : String :=
  directory home ++ "/deliverykit.toml"

def load (read : FileReader) (path : String) : Except Error Settings :=
  match read path with
  | .error cause => .error (.io path cause)
  | .ok text =>
    (ofToml text).mapError fun fault => .configuration (.unreadableSettings path fault)

end Settings

end DeliveryPipeline
