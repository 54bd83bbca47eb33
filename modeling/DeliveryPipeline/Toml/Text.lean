import DeliveryPipeline.Toml.Reader

/-!
# TOML texts and keys

Texts stand between single quotes as they are, or between double quotes with escapes. Between
threefold quotes they may have several lines, and may hold and end with one or two quotes of their
own. A key is a bare word or a text of one line, and a dotted key is a path of keys.
-/
namespace DeliveryPipeline.Toml

def hexValue? (c : Char) : Option Nat :=
  if c.isDigit then some (c.toNat - 48)
  else if 'a' ≤ c ∧ c ≤ 'f' then some (c.toNat - 87)
  else if 'A' ≤ c ∧ c ≤ 'F' then some (c.toNat - 55)
  else none

def hexNumber? (cs : List Char) : Option Nat :=
  cs.foldlM (fun n c => (hexValue? c).map (16 * n + ·)) 0

/-- The character written by a given number of hexadecimal digits. -/
def codePoint (digits : Nat) : Reader Char := do
  let cs ← ahead
  let some n := if cs.length < digits then none else hexNumber? (cs.take digits)
    | expected "hexadecimal digits"
  if h : n.isValidChar then
    set (cs.drop digits)
    return Char.ofNatAux n h
  else throw (.outOfRange "a character")

def escape : Reader Char := do
  match ← ahead with
  | 'b' :: rest => set rest; return '\x08'
  | 't' :: rest => set rest; return '\t'
  | 'n' :: rest => set rest; return '\n'
  | 'f' :: rest => set rest; return '\x0c'
  | 'r' :: rest => set rest; return '\r'
  | '"' :: rest => set rest; return '"'
  | '\\' :: rest => set rest; return '\\'
  | 'u' :: rest => set rest; codePoint 4
  | 'U' :: rest => set rest; codePoint 8
  | _ => expected "an escape"

def basicRest : Reader (List Char) := do
  let pieces ← collect do
    let plain ← run fun c => isPlain c && c != '"' && c != '\\'
    unless plain.isEmpty do return some plain
    if ← skip? ['\\'] then return some [← escape]
    return none
  take '"'
  return pieces.flatten

def literalRest : Reader (List Char) := do
  let plain ← run fun c => isPlain c && c != '\''
  take '\''
  return plain

/-- Quotes inside a text with threefold quotes: one or two of them belong to the text. Of three and
more, three close the text and up to two before these belong to it. -/
def innerQuotes? (quote : Char) : Reader (Option (List Char)) := do
  let cs ← ahead
  let count := (cs.takeWhile (· == quote)).length
  if count = 1 ∨ count = 2 then
    set (cs.drop count)
    return some (List.replicate count quote)
  return none

/-- The end of a text with threefold quotes, and the quotes before it that belong to the text. -/
def threefoldEnd (quote : Char) : Reader (List Char) := do
  let cs ← ahead
  let count := (cs.takeWhile (· == quote)).length
  if count < 3 then expected "three quotes"
  let own := min (count - 3) 2
  set (cs.drop (own + 3))
  return List.replicate own quote

/-- A backslash, then nothing but blanks up to the end of the line: the text goes on at the next
character that is not blank. -/
def continuation? : Reader Bool := do
  let cs ← ahead
  match cs with
  | '\\' :: rest =>
    let afterSpaces := rest.dropWhile isSpace
    match afterSpaces with
    | '\n' :: _ | '\r' :: '\n' :: _ =>
      set afterSpaces
      let _ ← collect (α := Unit) do
        spaces
        if ← lineBreak? then return some () else return none
      return true
    | _ => return false
  | _ => return false

def basicLinesRest : Reader (List Char) := do
  let _ ← lineBreak?
  let pieces ← collect do
    let plain ← run fun c => isPlain c && c != '"' && c != '\\'
    unless plain.isEmpty do return some plain
    if ← lineBreak? then return some ['\n']
    if ← continuation? then return some []
    if ← skip? ['\\'] then return some [← escape]
    innerQuotes? '"'
  return pieces.flatten ++ (← threefoldEnd '"')

def literalLinesRest : Reader (List Char) := do
  let _ ← lineBreak?
  let pieces ← collect do
    let plain ← run fun c => isPlain c && c != '\''
    unless plain.isEmpty do return some plain
    if ← lineBreak? then return some ['\n']
    innerQuotes? '\''
  return pieces.flatten ++ (← threefoldEnd '\'')

def text : Reader String := do
  if ← skip? ['"', '"', '"'] then return String.ofList (← basicLinesRest)
  if ← skip? ['"'] then return String.ofList (← basicRest)
  if ← skip? ['\'', '\'', '\''] then return String.ofList (← literalLinesRest)
  take '\''
  return String.ofList (← literalRest)

def isBare (c : Char) : Bool :=
  c.isAlphanum || c == '_' || c == '-'

def simpleKey : Reader String := do
  if ← skip? ['"'] then return String.ofList (← basicRest)
  if ← skip? ['\''] then return String.ofList (← literalRest)
  let word ← run isBare
  if word.isEmpty then expected "a key"
  return String.ofList word

def maxKeyLength : Nat := 79

/-- A key: steps with dots between them. -/
def keyPath : Reader (List String × String) := do
  spaces
  let first ← simpleKey
  spaces
  let more ← collect do
    unless ← skip? ['.'] do return none
    spaces
    let step ← simpleKey
    spaces
    return some step
  if maxKeyLength ≤ more.length then throw .nestedTooDeep
  let steps := first :: more
  return (steps.dropLast, steps.getLastD first)

end DeliveryPipeline.Toml
