import DeliveryPipeline.Text.Pieces

/-!
# Reading steps for TOML

A reading step takes characters off the front of a text and gives a result, or a fault. A step is
repeated only while it takes characters, so every repetition ends.
-/
namespace DeliveryPipeline.Toml

/-- Why a text is no TOML document, or not the document that was wanted. -/
inductive Fault where
  /-- Something else was wanted where a number of characters were left. -/
  | unexpected (wanted : String) (left : Nat)
  | outOfRange (wanted : String)
  | nestedTooDeep
  | keyTaken (key : String)
  | wrongShape
deriving DecidableEq, Repr

def Fault.message : Fault → String
  | unexpected wanted left =>
    "expected " ++ wanted ++ ", " ++ toString left ++ " characters before the end"
  | outOfRange wanted => wanted ++ " out of range"
  | nestedTooDeep => "values nested too deeply"
  | keyTaken key => "key `" ++ key ++ "` is taken"
  | wrongShape => "a value has not the wanted shape"

abbrev Reader := StateT (List Char) (Except Fault)

def expected {α : Type} (wanted : String) : Reader α := do
  throw (.unexpected wanted (← get).length)

def ahead : Reader (List Char) := get

/-- Take the longest run of characters with a property. -/
def run (p : Char → Bool) : Reader (List Char) := do
  let cs ← get
  set (cs.dropWhile p)
  return cs.takeWhile p

/-- Take a text if it comes next, and tell whether it did. -/
def skip? (mark : List Char) : Reader Bool := do
  match Text.afterPrefix? mark (← get) with
  | some rest => set rest; return true
  | none => return false

def take (c : Char) : Reader Unit := do
  unless ← skip? [c] do expected (String.singleton c)

/-- Repeat a step on a text until it gives nothing or takes nothing. -/
def collectFrom {α : Type} (step : Reader (Option α)) (cs : List Char) :
    Except Fault (List α × List Char) :=
  match step cs with
  | .error e => .error e
  | .ok (none, rest) => .ok ([], rest)
  | .ok (some a, rest) =>
    if rest.length < cs.length then
      match collectFrom step rest with
      | .error e => .error e
      | .ok (more, final) => .ok (a :: more, final)
    else .ok ([a], rest)
termination_by cs.length

/-- Repeat a step until it gives nothing or takes nothing. -/
def collect {α : Type} (step : Reader (Option α)) : Reader (List α) :=
  fun cs => collectFrom step cs

def isSpace (c : Char) : Bool :=
  c == ' ' || c == '\t'

/-- Characters that may stand in comments and in texts: all but the controls, tab excepted. -/
def isPlain (c : Char) : Bool :=
  c == '\t' || (0x20 ≤ c.toNat && c.toNat != 0x7F)

def spaces : Reader Unit := do
  let _ ← run isSpace

/-- Take a line break if one comes next, and tell whether it did. -/
def lineBreak? : Reader Bool := do
  if ← skip? ['\n'] then return true
  skip? ['\r', '\n']

/-- Take a comment if one comes next. -/
def comment : Reader Unit := do
  if ← skip? ['#'] then
    let _ ← run isPlain

/-- Take what may end a line: spaces, a comment, and a line break or the end of the text. -/
def lineEnd : Reader Unit := do
  spaces
  comment
  unless ← lineBreak? do
    unless (← ahead).isEmpty do expected "the end of the line"

def filler : Reader Unit := do
  spaces
  let _ ← collect (α := Unit) do
    comment
    if ← lineBreak? then
      spaces
      return some ()
    return none

end DeliveryPipeline.Toml
