import DeliveryPipeline.Text.Pieces

/-!
# Reading arguments

A level of a command line has options and, after them, the name of a command with its own level. The
values of an option follow it in the next arguments, or one value is attached to it. What was given
for an option is checked as soon as the next option begins, or at the end of the level.
-/
namespace DeliveryPipeline.CommandLine

/-- Why a command line runs no command. -/
inductive Interruption where
  | help
  | usage
deriving DecidableEq, Repr

/-- How often an option may be given, and with how many values. -/
inductive Arity where
  /-- Once, without a value. -/
  | flag
  /-- Any number of times, without a value. -/
  | counter
  /-- Once, with one value. -/
  | one
  /-- Any number of times, with one value each. -/
  | each
  /-- Any number of times, with one value or more each. -/
  | many
deriving DecidableEq, Repr

def Arity.takesValues : Arity → Bool
  | flag | counter => false
  | one | each | many => true

def Arity.repeats : Arity → Bool
  | flag | one => false
  | counter | each | many => true

/-- Whether a number of values is right for one occurrence. -/
def Arity.allows (a : Arity) (count : Nat) : Bool :=
  match a with
  | flag | counter => count == 0
  | one | each => count == 1
  | many => 1 ≤ count

/-- Whether one more value may follow a number of values. -/
def Arity.wantsMore (a : Arity) (count : Nat) : Bool :=
  match a with
  | flag | counter => false
  | one | each => count == 0
  | many => true

structure OptionSpec where
  long : String
  short : Option Char := none
  arity : Arity
  /-- Whether a text is a value of the option. -/
  accepts : String → Bool := fun _ => true

/-- The options of a level, and the commands that may follow them. -/
structure Level where
  options : List OptionSpec
  commands : List String := []
  versioned : Bool := false

structure Occurrence where
  option : OptionSpec
  values : List String := []

/-- What has been read of a level. -/
structure Reading where
  /-- What was given and is checked. -/
  given : List Occurrence := []
  /-- The last option, if its values are not yet checked. -/
  pending : Option Occurrence := none
  /-- Whether the next argument may be a value of the last option. -/
  awaiting : Bool := false

namespace Reading

def values (r : Reading) (long : String) : List String :=
  (r.given.filter fun o => o.option.long == long).flatMap Occurrence.values

def has (r : Reading) (long : String) : Bool :=
  r.given.any fun o => o.option.long == long

/-- Check an occurrence and take it in. -/
def accept (r : Reading) (o : Occurrence) : Except Interruption Reading :=
  if o.option.arity.allows o.values.length && o.values.all o.option.accepts &&
      (o.option.arity.repeats || !r.has o.option.long) then
    .ok { r with given := r.given ++ [o] }
  else .error .usage

/-- Check what was given for the last option. -/
def settle (r : Reading) : Except Interruption Reading :=
  match r.pending with
  | none => .ok r
  | some o => ({ r with pending := none } : Reading).accept o

/-- Begin an option, whose attached value is its only one. -/
def start (r : Reading) (option : OptionSpec) (attached : Option String) :
    Except Interruption Reading := do
  let r ← r.settle
  if option.arity.takesValues then
    match attached with
    | some v => return { ← r.accept ⟨option, [v]⟩ with awaiting := false }
    | none => return { r with pending := some ⟨option, []⟩, awaiting := true }
  else if attached.isSome then throw .usage
  else return { ← r.accept ⟨option, []⟩ with awaiting := false }

/-- Ask for help, once what came before is checked. -/
def interrupt (r : Reading) : Except Interruption Reading := do
  let _ ← r.settle
  throw .help

def push (r : Reading) (value : String) : Except Interruption Reading :=
  match r.awaiting, r.pending with
  | true, some o =>
    let o := { o with values := o.values ++ [value] }
    .ok { r with pending := some o, awaiting := o.option.arity.wantsMore o.values.length }
  | _, _ => .error .usage

end Reading

namespace Level

/-- Read an option by its long name, which an equals sign parts from an attached value. -/
def readLong (l : Level) (r : Reading) (body : List Char) : Except Interruption Reading :=
  let name := String.ofList (body.takeWhile (· != '='))
  let attached := match body.dropWhile (· != '=') with
    | [] => none
    | _ :: value => some (String.ofList value)
  match l.options.find? fun o => o.long == name with
  | some option => r.start option attached
  | none =>
    if attached.isNone && (name == "help" || (l.versioned && name == "version")) then r.interrupt
    else .error .usage

/-- Read options by their short names. What follows one that takes values is its attached value,
with or without an equals sign. -/
def readShort (l : Level) (r : Reading) : List Char → Except Interruption Reading
  | [] => .ok r
  | c :: rest =>
    match l.options.find? fun o => o.short == some c with
    | some option =>
      if option.arity.takesValues then
        match rest with
        | [] => r.start option none
        | '=' :: value => r.start option (some (String.ofList value))
        | value => r.start option (some (String.ofList value))
      else do
        let r ← r.start option none
        l.readShort r rest
    | none => if c == 'h' || (l.versioned && c == 'V') then r.interrupt else .error .usage

/-- Read one argument that is no command: an option, or else a value. -/
def readArgument (l : Level) (r : Reading) (argument : String) : Except Interruption Reading :=
  match argument.toList with
  | '-' :: '-' :: body => l.readLong r body
  | '-' :: c :: rest => l.readShort r (c :: rest)
  | _ => r.push argument

/-- Read arguments up to a command. The command and what follows it are left. A double dash stands
at the end only. -/
def read (l : Level) (r : Reading) : List String → Except Interruption (Reading × List String)
  | [] => .ok (r, [])
  | argument :: rest =>
    if !r.awaiting && l.commands.contains argument then .ok (r, argument :: rest)
    else if argument == "--" then if rest.isEmpty then .ok (r, []) else .error .usage
    else
      match l.readArgument r argument with
      | .ok r => l.read r rest
      | .error i => .error i

end Level

end DeliveryPipeline.CommandLine
