import DeliveryPipeline.Text.Quoted
import DeliveryPipeline.Value

/-!
# JSON texts of values

A value is written as a JSON text with one item a line and two more spaces of indent at each level.
An empty list or record stays on one line.
-/
namespace DeliveryPipeline.Json

/-- A character inside a JSON text: the two marks and the controls are escaped. -/
def escapedChar (c : Char) : List Char :=
  if c = '"' ∨ c = '\\' then ['\\', c]
  else if c = '\x08' then ['\\', 'b']
  else if c = '\t' then ['\\', 't']
  else if c = '\n' then ['\\', 'n']
  else if c = '\x0c' then ['\\', 'f']
  else if c = '\r' then ['\\', 'r']
  else if c.toNat < 0x20 then
    let digits := Text.hexDigits c.toNat
    ['\\', 'u'] ++ List.replicate (4 - digits.length) '0' ++ digits
  else [c]

def quoted (s : String) : String :=
  String.ofList ('"' :: s.toList.flatMap escapedChar ++ ['"'])

def newLine (level : Nat) : String :=
  "\n" ++ String.ofList (List.replicate (2 * level) ' ')

/-- Written items between two brackets, each on a line of the next level. -/
def enclosed (level : Nat) (opening closing : String) (items : List String) : String :=
  if items.isEmpty then opening ++ closing
  else opening ++ ",".intercalate (items.map (newLine (level + 1) ++ ·)) ++ newLine level ++ closing

mutual

def write (level : Nat) : Value → String
  | .null => "null"
  | .boolean b => toString b
  | .integer n => toString n
  | .decimal literal => literal
  | .text s => quoted s
  | .list items => enclosed level "[" "]" (writeItems (level + 1) items)
  | .record fields => enclosed level "\x7b" "\x7d" (writeFields (level + 1) fields)

def writeItems (level : Nat) : List Value → List String
  | [] => []
  | v :: rest => write level v :: writeItems level rest

def writeFields (level : Nat) : List (String × Value) → List String
  | [] => []
  | (name, v) :: rest => (quoted name ++ ": " ++ write level v) :: writeFields level rest

end

def ofValue (v : Value) : String :=
  write 0 v

end DeliveryPipeline.Json
