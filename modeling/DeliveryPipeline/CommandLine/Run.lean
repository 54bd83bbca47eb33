import DeliveryPipeline.Cache
import DeliveryPipeline.CommandLine.Command
import DeliveryPipeline.Settings
import DeliveryPipeline.Value.Json

/-!
# Running commands

A command answers with a text to print, with a file to write, or with the chain of what went wrong,
the outermost first. A plan prints as it goes, and it prints only once it can no longer fail.
-/
namespace DeliveryPipeline.CommandLine

/-- What a command finds around it. -/
structure Surroundings where
  home : Option String
  read : FileReader
  exists? : String → Bool
  pipelineId : String
  builtAt : String

inductive Reply where
  | print (output : String)
  /-- Write a file, and its directory if it is missing, and print a text then. -/
  | write (directory file text output : String)
  | fail (chain : List String)
deriving DecidableEq, Repr

inductive PlanFailure where
  | settings (cause : Error)
  | noResources
  | resources (cause : Error)
  | build (profiles : ProfileSet) (cause : Error)
deriving DecidableEq

/-- The wordings of a failed plan and of what lies behind it. -/
def PlanFailure.chain : PlanFailure → List String
  | settings cause => cause.chain
  | noResources =>
    ["no resource files given: pass --resources or set build.resources in the config"]
  | resources cause => "failed to load resource files" :: cause.chain
  | build profiles cause =>
    ("failed to build the pipeline for profile '" ++ profiles.label ++ "'") :: cause.chain

/-- A command under way. What it has printed stays printed when it fails later. -/
abbrev Printing (ε : Type) := ExceptT ε (StateM String)

namespace Printing

/-- Print a text behind all that is printed. -/
def say {ε : Type} (text : String) : Printing ε Unit :=
  modify (· ++ text)

/-- Run a command when some text is printed already: its result, and all that is printed then. -/
def runAfter {ε α : Type} (c : Printing ε α) (printed : String) : Except ε α × String :=
  StateT.run (ExceptT.run c) printed

@[simp] theorem runAfter_say {ε : Type} (text printed : String) :
    runAfter (ε := ε) (say text) printed = (.ok (), printed ++ text) := rfl

/-- A first step that only computes prints nothing, and ends the command if it fails. -/
theorem runAfter_lift_bind {ε α β : Type} (x : Except ε α) (k : α → Printing ε β)
    (printed : String) : runAfter (liftM x >>= k) printed =
      match x with
      | .ok a => (k a).runAfter printed
      | .error e => (.error e, printed) := by
  cases x <;> rfl

end Printing

/-- The settings file below the home directory. -/
def settingsFile (home : Option String) : Except Error String :=
  match home with
  | some home => .ok (Settings.file home)
  | none => .error (.configuration .homeUnknown)

/-- The settings of the user, which are the defaults when there is no file. -/
def settingsIn (around : Surroundings) : Except Error Settings := do
  let path ← settingsFile around.home
  if around.exists? path then Settings.load around.read path else return {}

namespace PlanRequest

/-- The resource files: those asked for, else those of the settings. -/
def filesWith (q : PlanRequest) (s : Settings) : List String :=
  if q.resources.isEmpty then s.resources else q.resources

/-- The profile set: what is asked for, else what the settings say. -/
def profilesWith (q : PlanRequest) (s : Settings) : ProfileSet :=
  ProfileSet.ofNames (q.profile.getD s.profile)
    (if q.subProfiles.isEmpty then s.subProfiles else q.subProfiles)

/-- The limit on expansions: the one asked for, else that of the settings. -/
def limitWith (q : PlanRequest) (s : Settings) : Nat :=
  q.maxExpansions.getD s.maxExpansions

/-- Build the pipeline of a plan in a new context. -/
def pipeline (q : PlanRequest) (s : Settings) (read : FileReader) :
    Except PlanFailure Pipeline := do
  let files := q.filesWith s
  if files.isEmpty then throw .noResources
  let profiles := q.profilesWith s
  let store ← (Store.ofFiles read files).mapError .resources
  let context : Context := { environment := { store, maxExpansions := q.limitWith s } }
  (context.getOrBuild profiles none).2.result.mapError (.build profiles)

def render (q : PlanRequest) (around : Surroundings) (p : Pipeline) : String :=
  if q.json then Json.ofValue (p.summary around.pipelineId around.builtAt) ++ "\n"
  else p.plan around.pipelineId

end PlanRequest

def runPlan (around : Surroundings) (q : PlanRequest) : Printing PlanFailure Unit := do
  let settings ← (settingsIn around).mapError PlanFailure.settings
  let pipeline ← q.pipeline settings around.read
  Printing.say (q.render around pipeline)

def run (around : Surroundings) : Command → Reply
  | .plan q =>
    -- nothing is printed yet when a plan fails
    match (runPlan around q).runAfter "" with
    | (.ok (), output) => .print output
    | (.error failure, _) => .fail failure.chain
  | .writeSettings =>
    match around.home with
    | none => .fail (Error.configuration .homeUnknown).chain
    | some home =>
      let path := Settings.file home
      .write (Settings.directory home) path (Settings.toToml {})
        ("Config initialized at: " ++ path ++ "\n")
  | .showSettings =>
    match settingsIn around with
    | .ok settings => .print (settings.toToml ++ "\n")
    | .error e => .fail e.chain

end DeliveryPipeline.CommandLine
