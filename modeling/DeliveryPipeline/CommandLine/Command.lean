import DeliveryPipeline.CommandLine.Arguments

/-!
# Commands

The command line plans a pipeline, or writes or shows the settings. Log options may stand at every
level. Help may be asked for at every level too, by an option or by the command `help`, which is
followed by the names of the command that is asked about.
-/
namespace DeliveryPipeline.CommandLine

structure PlanRequest where
  resources : List String := []
  profile : Option String := none
  subProfiles : List String := []
  maxExpansions : Option Nat := none
  json : Bool := false
deriving DecidableEq, Repr

inductive Command where
  | plan (request : PlanRequest)
  | writeSettings
  | showSettings
deriving DecidableEq, Repr

/-- A number in digits, with or without a plus sign, that fits into 64 bits. -/
def naturalOf? (s : String) : Option Nat :=
  let digits := match s.toList with
    | '+' :: rest => rest
    | cs => cs
  if digits.isEmpty || !digits.all Char.isDigit then none
  else
    let n := digits.foldl (fun n c => 10 * n + (c.toNat - '0'.toNat)) 0
    if n < Nat.pow 2 64 then some n else none

def logOptions : List OptionSpec := [
  { long := "log-format", arity := .one, accepts := fun s => s == "text" || s == "json" },
  { long := "verbose", short := some 'v', arity := .counter }]

def planOptions : List OptionSpec := [
  { long := "resources", short := some 'r', arity := .many, accepts := fun s => s != "" },
  { long := "profile", short := some 'p', arity := .one },
  { long := "sub-profile", arity := .each },
  { long := "max-expansions", arity := .one, accepts := fun s => (naturalOf? s).isSome },
  { long := "json", arity := .flag }]

def topLevel : Level :=
  { options := logOptions, commands := ["plan", "config", "help"], versioned := true }

def planLevel : Level :=
  { options := planOptions ++ logOptions }

def configLevel : Level :=
  { options := logOptions, commands := ["init", "show", "help"] }

/-- The level of a command without options of its own. -/
def plainLevel : Level :=
  { options := logOptions }

/-- The help on a command, if it is one of the known ones. -/
def helpOn (topics : List (List String)) (names : List String) : Except Interruption Command :=
  .error (if topics.contains names then .help else .usage)

def readLast (l : Level) (arguments : List String) : Except Interruption Reading := do
  let (r, _) ← l.read {} arguments
  r.settle

/-- Read a plan. The limit on expansions may also come from the environment. -/
def readPlan (limitByDefault : Option String) (arguments : List String) :
    Except Interruption Command := do
  let r ← readLast planLevel arguments
  let limit := (r.values "max-expansions").head?.or limitByDefault
  let maxExpansions ← limit.mapM fun s => match naturalOf? s with
    | some n => pure n
    | none => throw .usage
  return .plan {
    resources := r.values "resources"
    profile := (r.values "profile").head?
    subProfiles := r.values "sub-profile"
    maxExpansions
    json := r.has "json" }

def readConfig (arguments : List String) : Except Interruption Command := do
  let (r, left) ← configLevel.read {} arguments
  let command ← match left with
    | "init" :: rest => do
      let _ ← readLast plainLevel rest
      pure Command.writeSettings
    | "show" :: rest => do
      let _ ← readLast plainLevel rest
      pure Command.showSettings
    | "help" :: names => helpOn [[], ["init"], ["show"], ["help"]] names
    | _ => throw .usage
  let _ ← r.settle
  return command

/-- Read a command line. What stands before a command is checked after the command. -/
def readCommand (limitByDefault : Option String) (arguments : List String) :
    Except Interruption Command := do
  let (r, left) ← topLevel.read {} arguments
  let command ← match left with
    | "plan" :: rest => readPlan limitByDefault rest
    | "config" :: rest => readConfig rest
    | "help" :: names =>
      helpOn [[], ["plan"], ["config"], ["help"], ["config", "init"], ["config", "show"],
        ["config", "help"]] names
    | _ => throw .usage
  let _ ← r.settle
  return command

end DeliveryPipeline.CommandLine
