import DeliveryPipeline.Text.Pieces

/-!
# File trees in memory

A file tree holds the texts of files by their paths. A path is followed step by step from the top
directory; a directory exists as long as a file lies in it. Above the top directory there are
directories, but no files and no other way down. What hinders reading and writing is worded as the
operating system does.
-/
namespace DeliveryPipeline

inductive FileFault where
  | notFound
  | alreadyExists
  | notDirectory
  | isDirectory
  | nameTooLong
  | nulInName
deriving DecidableEq, Repr

def FileFault.message : FileFault → String
  | notFound => "No such file or directory (os error 2)"
  | alreadyExists => "File exists (os error 17)"
  | notDirectory => "Not a directory (os error 20)"
  | isDirectory => "Is a directory (os error 21)"
  | nameTooLong => "File name too long (os error 36)"
  | nulInName => "file name contained an unexpected NUL byte"

/-- The texts of files by the steps of their paths. -/
structure FileTree where
  files : List (List String × String) := []
deriving DecidableEq, Repr

namespace FileTree

instance : Inhabited FileTree := ⟨{}⟩

/-- The steps of a path. Slashes in a row count as one, and a step to the same place as none. -/
def steps (path : String) : List String :=
  (Text.words (· == '/') path).filter (· ≠ ".")

def text? (t : FileTree) (place : List String) : Option String :=
  t.files.lookup place

def isDirectory (t : FileTree) (place : List String) : Bool :=
  place.isEmpty || t.files.any fun f => place.isPrefixOf f.1 && place.length < f.1.length

def put (t : FileTree) (path text : String) : FileTree :=
  ⟨(steps path, text) :: t.files.filter fun f => f.1 ≠ steps path⟩

/-- Follow steps from above the top directory. Further up there are only directories, which count as
the top directory, and no step leads down. -/
def followAbove : List String → Except FileFault (List String)
  | [] => .ok []
  | step :: rest =>
    if step = ".." then followAbove rest
    else .error (if 255 < step.utf8ByteSize then .nameTooLong else .notFound)

def follow (t : FileTree) (place : List String) : List String → Except FileFault (List String)
  | [] => .ok place
  | step :: rest =>
    if !t.isDirectory place then
      .error (if (t.text? place).isSome then .notDirectory else .notFound)
    else if 255 < step.utf8ByteSize then .error .nameTooLong
    else if step ≠ ".." then t.follow (place ++ [step]) rest
    else if place.isEmpty then followAbove rest
    else t.follow place.dropLast rest

/-- Whether a path can only lead to a directory. -/
def wantsDirectory (path : String) : Bool :=
  path.endsWith "/" || path.endsWith "/."

def locate (t : FileTree) (path : String) : Except FileFault (List String) :=
  if path.toList.contains '\x00' then .error .nulInName
  else if 4096 ≤ path.utf8ByteSize then .error .nameTooLong
  else if path = "" then .error .notFound
  else if path.startsWith "/" then followAbove (steps path)
  else t.follow [] (steps path)

def read (t : FileTree) (path : String) : Except FileFault String := do
  let place ← t.locate path
  match t.text? place with
  | some text => if wantsDirectory path then throw .notDirectory else return text
  | none => throw (if t.isDirectory place then .isDirectory else .notFound)

def contains (t : FileTree) (path : String) : Bool :=
  match t.locate path with
  | .ok place => t.isDirectory place || ((t.text? place).isSome && !wantsDirectory path)
  | .error _ => false

/-- Make the directory at a place, and those above it, none of which may be a file. An empty
directory leaves no trace. -/
def makeDirectory (t : FileTree) (place : List String) : Except FileFault Unit := do
  if (List.range place.length).any fun n => (t.text? (place.take n)).isSome then
    throw .notDirectory
  if (t.text? place).isSome then throw .alreadyExists

/-- Write a file after making a directory for it. A fault comes with the path that it is about. -/
def write (t : FileTree) (directory path text : String) :
    Except (String × FileFault) FileTree := do
  (t.makeDirectory (steps directory)).mapError fun fault => (directory, fault)
  if t.isDirectory (steps path) then throw (path, .isDirectory)
  return t.put path text

end FileTree

end DeliveryPipeline
