import DeliveryPipeline.Toml.Number
import DeliveryPipeline.Toml.Text

/-!
# TOML documents

A document is read line by line, and each line changes a tree of tables. Tables remember whether a
header has opened them, whether they only lie on the way of a header, or whether dotted keys made
them, since that decides how they may be extended. A finished document is a record.
-/
namespace DeliveryPipeline.Toml

/-- How a table came about. -/
inductive Origin where
  /-- A header opened it, or it is the document or an inline table. -/
  | opened
  /-- It lies on the way of a header. -/
  | implied
  /-- Dotted keys made it. -/
  | dotted
deriving DecidableEq, Repr

/-- A place in the tree of tables. -/
inductive Node where
  | leaf (v : Value)
  | table (origin : Origin) (entries : List (String × Node))
  | tables (elements : List (List (String × Node)))

abbrev Entries := List (String × Node)

mutual

def Node.toValue : Node → Value
  | .leaf v => v
  | .table _ entries => .record (fieldsOf entries)
  | .tables elements => .list (recordsOf elements)

def fieldsOf : List (String × Node) → List (String × Value)
  | [] => []
  | (key, node) :: rest => (key, node.toValue) :: fieldsOf rest

def recordsOf : List (List (String × Node)) → List Value
  | [] => []
  | entries :: rest => .record (fieldsOf entries) :: recordsOf rest

end

def putAt (entries : Entries) (key : String) (node : Node) : Entries :=
  entries.map fun e => if e.1 == key then (key, node) else e

/-- Change the table at the end of a path. Tables that are missing on the way are made with the
given origin, and of an array of tables the last element is meant. A dotted key does not lead
through a table that a header has opened. -/
def changeAt (origin : Origin) (change : Origin → Entries → Except Fault Entries) :
    List String → Origin → Entries → Except Fault Entries
  | [], here, entries => change here entries
  | key :: path, _, entries =>
    match entries.lookup key with
    | none => do
      let inner ← changeAt origin change path origin []
      return entries ++ [(key, .table origin inner)]
    | some (.leaf _) => throw (.keyTaken key)
    | some (.table made inner) => do
      if origin = .dotted ∧ made = .opened then throw (.keyTaken key)
      let inner ← changeAt origin change path made inner
      return putAt entries key (.table made inner)
    | some (.tables elements) => do
      let last ← changeAt origin change path .opened (elements.getLastD [])
      return putAt entries key (.tables (elements.dropLast ++ [last]))

/-- Bind a new key to a value at the end of a path of dotted keys. A path of two keys and more has
to end in a table that dotted keys made. -/
def bind (path : List String) (key : String) (v : Value) :
    Origin → Entries → Except Fault Entries :=
  changeAt .dotted (fun here entries =>
    if (here == .dotted) == path.isEmpty || (entries.lookup key).isSome then throw (.keyTaken key)
    else return entries ++ [(key, .leaf v)]) path

/-- Open the table under a key, which no header has opened and no dotted key has made. -/
def openTable (key : String) (_ : Origin) (entries : Entries) : Except Fault Entries :=
  match entries.lookup key with
  | none => return entries ++ [(key, .table .opened [])]
  | some (.table .implied inner) => return putAt entries key (.table .opened inner)
  | some _ => throw (.keyTaken key)

/-- Add an element to the array of tables under a key. -/
def addElement (key : String) (_ : Origin) (entries : Entries) : Except Fault Entries :=
  match entries.lookup key with
  | none => return entries ++ [(key, .tables [[]])]
  | some (.tables elements) => return putAt entries key (.tables (elements ++ [[]]))
  | some _ => throw (.keyTaken key)

/-- A list of values, between which line breaks and comments may stand. -/
def array (element : Reader Value) : Reader Value := do
  take '['
  let items ← collect do
    filler
    match ← ahead with
    | ']' :: _ => return none
    | _ =>
      let v ← element
      filler
      match ← ahead with
      | ',' :: rest => set rest
      | ']' :: _ => pure ()
      | _ => expected "a comma or a closing bracket"
      return some v
  take ']'
  return .list items

/-- A table of one line. -/
def inlineTable (element : Reader Value) : Reader Value := do
  take '\x7b'
  spaces
  if ← skip? ['\x7d'] then return .record []
  let binding : Reader ((List String × String) × Value) := do
    let key ← keyPath
    take '='
    spaces
    let v ← element
    spaces
    return (key, v)
  let first ← binding
  let more ← collect do
    unless ← skip? [','] do return none
    return some (← binding)
  take '\x7d'
  match (first :: more).foldlM (fun entries b => bind b.1.1 b.1.2 b.2 .opened entries) [] with
  | .ok entries => return .record (fieldsOf entries)
  | .error e => throw e

/-- A value that is no list and no table. -/
def plainValue : Reader Value := do
  match ← ahead with
  | '"' :: _ | '\'' :: _ => return .text (← text)
  | c :: _ =>
    if c == '+' || c == '-' || c.isDigit then numberOrMoment
    else if ← skip? "true".toList then return .boolean true
    else if ← skip? "false".toList then return .boolean false
    else if ← skip? "inf".toList then return .decimal "inf"
    else if ← skip? "nan".toList then return .decimal "nan"
    else expected "a value"
  | [] => expected "a value"

/-- A value with at most `depth` levels of lists and tables. -/
def value (depth : Nat) : Reader Value := do
  match ← ahead, depth with
  | '[' :: _, 0 | '\x7b' :: _, 0 => throw .nestedTooDeep
  | '[' :: _, inner + 1 => array (value inner)
  | '\x7b' :: _, inner + 1 => inlineTable (value inner)
  | _, _ => plainValue

def maxDepth : Nat := 79

inductive Line where
  | table (path : List String) (key : String)
  | element (path : List String) (key : String)
  | binding (path : List String) (key : String) (v : Value)

/-- The next line that says something. -/
def nextLine : Reader (Option (List Line)) := do
  spaces
  match ← ahead with
  | [] => return none
  | '#' :: _ | '\n' :: _ | '\r' :: _ => lineEnd; return some []
  | '[' :: '[' :: rest =>
    set rest
    let (path, key) ← keyPath
    take ']'
    take ']'
    lineEnd
    return some [.element path key]
  | '[' :: rest =>
    set rest
    let (path, key) ← keyPath
    take ']'
    lineEnd
    return some [.table path key]
  | _ =>
    let (path, key) ← keyPath
    take '='
    spaces
    let v ← value maxDepth
    lineEnd
    return some [.binding path key v]

/-- A document under way: its entries, and the path of the table that bindings go into. -/
structure Draft where
  entries : Entries := []
  current : List String := []

def Draft.apply (d : Draft) : Line → Except Fault Draft
  | .table path key => do
    return ⟨← changeAt .implied (openTable key) path .opened d.entries, path ++ [key]⟩
  | .element path key => do
    return ⟨← changeAt .implied (addElement key) path .opened d.entries, path ++ [key]⟩
  | .binding path key v => do
    return { d with entries := ← changeAt .implied (bind path key v) d.current .opened d.entries }

/-- Read a document as a record. A byte order mark before it does not count. -/
def parse (s : String) : Except Fault Value := do
  let document : Reader (List (List Line)) := do
    let _ ← skip? ['\uFEFF']
    let lines ← collect nextLine
    unless (← ahead).isEmpty do expected "the end of the text"
    return lines
  let (lines, _) ← document.run s.toList
  let draft ← lines.flatten.foldlM Draft.apply {}
  return .record (fieldsOf draft.entries)

end DeliveryPipeline.Toml
