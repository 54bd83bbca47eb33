import DeliveryPipeline.Text.Quoted

/-!
# Writing TOML

A text is written in the plainest form that takes it as it is: between double quotes, between
single quotes, between threefold double quotes, between threefold single quotes. A text that no form
takes is written with escapes. A list of two items and more has one item a line.
-/
namespace DeliveryPipeline.Toml

inductive TextForm where
  /-- Between double quotes. -/
  | basic
  /-- Between single quotes, with nothing escaped. -/
  | literal
  /-- Between threefold double quotes, on several lines. -/
  | basicLines
  /-- Between threefold single quotes, on several lines, with nothing escaped. -/
  | literalLines
deriving DecidableEq, Repr

def TextForm.delimiter : TextForm → String
  | basic => "\""
  | literal => "'"
  | basicLines => "\"\"\""
  | literalLines => "'''"

/-- Whether a character can only be written with an escape. -/
def isHidden (c : Char) : Bool :=
  (c.toNat ≤ 0x1F && c != '\t' && c != '\n') || c.toNat == 0x7F

/-- The lengths of the runs of a character up to each place of a text. -/
def runLengths (c : Char) (run : Nat) : List Char → List Nat
  | [] => []
  | d :: rest =>
    let run := if d = c then run + 1 else 0
    run :: runLengths c run rest

/-- Whether a character stands more than a number of times in a row. -/
def runsOver (limit : Nat) (c : Char) (cs : List Char) : Bool :=
  (runLengths c 0 cs).any (limit < ·)

/-- Whether a form takes a text as it is. Only the threefold forms have several lines, and these may
hold two of their quotes in a row. -/
def TextForm.takes (form : TextForm) (cs : List Char) : Bool :=
  !cs.any isHidden &&
  match form with
  | basic => !cs.contains '\\' && !cs.contains '"' && !cs.contains '\n'
  | literal => !cs.contains '\'' && !cs.contains '\n'
  | basicLines => !cs.contains '\\' && !runsOver 2 '"' cs
  | literalLines => !runsOver 2 '\'' cs

def TextForm.all : List TextForm :=
  [basic, literal, basicLines, literalLines]

def TextForm.ofText (cs : List Char) : TextForm :=
  (all.find? (·.takes cs)).getD (if cs.contains '\n' then basicLines else basic)

def fourDigits (n : Nat) : List Char :=
  let cs := (Nat.toDigits 16 n).map Char.toUpper
  List.replicate (4 - cs.length) '0' ++ cs

/-- A character other than a quote between double quotes. -/
def escaped (lines : Bool) (c : Char) : List Char :=
  if c = '\x08' then ['\\', 'b']
  else if c = '\t' then ['\\', 't']
  else if c = '\n' then if lines then ['\n'] else ['\\', 'n']
  else if c = '\x0c' then ['\\', 'f']
  else if c = '\r' then ['\\', 'r']
  else if c = '\\' then ['\\', '\\']
  else if isHidden c then ['\\', 'u'] ++ fourDigits c.toNat
  else [c]

/-- Characters between double quotes, of which `run` quotes stand just before. Between threefold
quotes two in a row may stand as they are, and the next is escaped. -/
def escapedFrom (lines : Bool) (run : Nat) : List Char → List Char
  | [] => []
  | c :: rest =>
    if c ≠ '"' then escaped lines c ++ escapedFrom lines 0 rest
    else if lines ∧ run < 2 then c :: escapedFrom lines (run + 1) rest
    else '\\' :: c :: escapedFrom lines 0 rest

def TextForm.body (form : TextForm) (cs : List Char) : List Char :=
  match form with
  | basic => escapedFrom false 0 cs
  | basicLines => escapedFrom true 0 cs
  | literal | literalLines => cs

/-- A text as a value. A text with line breaks starts on a line of its own. -/
def writeText (s : String) : String :=
  let cs := s.toList
  let form := TextForm.ofText cs
  let start := match form with
    | .basic | .literal => ""
    | .basicLines | .literalLines => if cs.contains '\n' then "\n" else ""
  form.delimiter ++ start ++ String.ofList (form.body cs) ++ form.delimiter

def writeTexts (items : List String) : String :=
  match items with
  | [] => "[]"
  | [item] => "[" ++ writeText item ++ "]"
  | _ => "[\n" ++ String.join (items.map fun s => "    " ++ writeText s ++ ",\n") ++ "]"

end DeliveryPipeline.Toml
