import DeliveryPipeline.CommandLine.Run
import DeliveryPipeline.FileTree
import DeliveryPipeline.Identifier
import Std.Time.Format

/-!
# The command line

Reads the arguments and the files that a command needs, runs the command, and prints its answer.
-/
namespace DeliveryPipeline.CommandLine

/-- The number of an error of the operating system, which is also given negated. -/
def errorNumber (code : UInt32) : Nat :=
  if code.toNat < Nat.pow 2 31 then code.toNat else Nat.pow 2 32 - code.toNat

/-- The wording of an error of the operating system. -/
def faultOf (e : IO.Error) : String :=
  let coded (code : UInt32) (details : String) : String :=
    details ++ " (os error " ++ toString (errorNumber code) ++ ")"
  match e with
  | .noFileOrDirectory .. => FileFault.notFound.message
  | .alreadyExists _ code details | .otherError code details | .resourceBusy code details
  | .resourceVanished code details | .unsupportedOperation code details
  | .hardwareFault code details | .unsatisfiedConstraints code details
  | .illegalOperation code details | .protocolError code details | .timeExpired code details
  | .interrupted _ code details | .invalidArgument _ code details
  | .permissionDenied _ code details | .resourceExhausted _ code details
  | .inappropriateType _ code details | .noSuchThing _ code details => coded code details
  | .unexpectedEof => "unexpected end of file"
  | .userError message => message

inductive FileState where
  | missing (cause : String)
  | unreadable (cause : String)
  | held (text : String)

def fileState (path : String) : IO FileState := do
  try
    return .held (← IO.FS.readFile path)
  catch e =>
    match e with
    | .noFileOrDirectory .. => return .missing (faultOf e)
    | _ => return .unreadable (faultOf e)

def readFiles (paths : List String) : IO (List (String × FileState)) :=
  paths.mapM fun path => return (path, ← fileState path)

/-- What a command finds around it, with the given files. -/
def surroundings (home : Option String) (files : List (String × FileState))
    (pipelineId builtAt : String) : Surroundings where
  home
  read path :=
    match (files.lookup path).getD (.missing "not looked for") with
    | .held text => .ok text
    | .unreadable cause | .missing cause => .error cause
  exists? path :=
    match (files.lookup path).getD (.missing "not looked for") with
    | .held _ | .unreadable _ => true
    | .missing _ => false
  pipelineId
  builtAt

/-- Everything that a command finds around it. -/
def lookAround (command : Command) : IO Surroundings := do
  let home ← IO.getEnv "HOME"
  let settingsFiles ← readFiles (home.map Settings.file).toList
  let now ← Std.Time.Timestamp.now
  let bytes ← IO.getRandomBytes 10
  let randomBits := bytes.data.foldl (fun n b => 256 * n + b.toNat) 0
  let id := Identifier.ofTime now.toMillisecondsSinceUnixEpoch.val.toNat randomBits
  let builtAt := (Std.Time.DateTime.ofTimestamp now .UTC).toISO8601String
  let first := surroundings home settingsFiles id builtAt
  match command, settingsIn first with
  | .plan q, .ok settings =>
    let resourceFiles ← readFiles (q.filesWith settings)
    return surroundings home (settingsFiles ++ resourceFiles) id builtAt
  | _, _ => return first

/-- Print what went wrong, the outermost first. -/
def printChain (chain : List String) : IO UInt32 := do
  let err ← IO.getStderr
  chain.forM fun line => err.putStrLn line
  return 1

/-- Carry out the answer of a command. -/
def deliver : Reply → IO UInt32
  | .print output => do
    IO.print output
    return 0
  | .write directory file text output => do
    try
      IO.FS.createDirAll directory
    catch e => return ← printChain (Error.io directory (faultOf e)).chain
    try
      IO.FS.writeFile file text
    catch e => return ← printChain (Error.io file (faultOf e)).chain
    IO.print output
    return 0
  | .fail chain => printChain chain

def usageText : String :=
  "usage: deliverykit [--log-format text|json] [-v] plan [-r FILE...] [-p PROFILE]\n" ++
  "         [--sub-profile PROFILE] [--max-expansions N] [--json]\n" ++
  "       deliverykit [--log-format text|json] [-v] config init|show\n"

end DeliveryPipeline.CommandLine

open DeliveryPipeline.CommandLine in
def main (arguments : List String) : IO UInt32 := do
  let limit ← IO.getEnv "DELIVERYKIT_MAX_EXPANSIONS"
  match readCommand limit arguments with
  | .error .help =>
    IO.print usageText
    return 0
  | .error .usage =>
    (← IO.getStderr).putStr usageText
    return 2
  | .ok command => deliver (run (← lookAround command) command)
