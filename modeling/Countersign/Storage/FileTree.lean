import Countersign.Text.Utf8

/-! A tree of folders and files, for the documents and queues that are kept in files. A path leads
from the root over names and parents, separated by slashes, to a file or a folder; a path that ends
in a slash can only lead to a folder. -/

namespace Countersign

inductive FileFault where
  | missing
  /-- A file stands where a folder is needed. -/
  | notFolder
  /-- A folder stands where a file is needed. -/
  | isFolder
  /-- No file can have the path, or the name in it. -/
  | badName
  /-- The content is no text. -/
  | notText
deriving DecidableEq

/-- What messages have in place of the cause of a failure, whose wording is the host's. -/
def hostCause : String := "<source>"

namespace FilePath

inductive Step where
  | name (s : String)
  | parent
deriving DecidableEq

/-- The most bytes that a path can have. -/
def maxSize : Nat := 4095

/-- The most bytes that a name can have. -/
def maxNameSize : Nat := 255

def isUsable (path : String) : Bool :=
  path.utf8ByteSize ≤ maxSize && !path.toList.contains '\x00'

/-- The pieces between the slashes of a path. -/
def pieces (path : String) : List String := (path.toList.splitOn '/').map String.ofList

/-- A piece of a path that leads nowhere. -/
def isStill (piece : String) : Bool := piece = "" || piece = "."

def steps (path : String) : List Step :=
  ((pieces path).filter fun piece => !isStill piece).map fun piece =>
    if piece = ".." then .parent else .name piece

def isFolderOnly (path : String) : Bool :=
  match pieces path with
  | [_] => false
  | ps => ps.getLast?.any isStill

/-- The pieces without those at the end that lead nowhere. -/
def withoutStill (ps : List String) : List String :=
  (ps.reverse.dropWhile isStill).reverse

def parent (path : String) : String :=
  "/".intercalate (withoutStill (withoutStill (pieces path)).dropLast)

/-- Where a step leads from a folder. The root is its own parent. -/
def Step.destination (step : Step) (folder : List String) : Except FileFault (List String) :=
  match step with
  | .name s => if s.utf8ByteSize ≤ maxNameSize then .ok (folder ++ [s]) else .error .badName
  | .parent => .ok folder.dropLast

end FilePath

structure FileTree where
  /-- The files with their contents. A place is the names on the way to it from the root. -/
  files : List (List String × List UInt8)
  /-- The folders below the root. -/
  folders : List (List String)

namespace FileTree

def empty : FileTree := ⟨[], []⟩

instance : Inhabited FileTree := ⟨empty⟩

def content? (t : FileTree) (place : List String) : Option (List UInt8) :=
  (t.files.find? fun f => f.1 = place).map (·.2)

def isFile (t : FileTree) (place : List String) : Bool := (t.content? place).isSome

def isFolder (t : FileTree) (place : List String) : Bool :=
  place = [] || t.folders.contains place

/-- Where a step leads from a place, which has to be a folder. -/
def next (t : FileTree) (place : List String) (step : FilePath.Step) :
    Except FileFault (List String) :=
  if t.isFolder place then step.destination place
  else .error (if t.isFile place then .notFolder else .missing)

/-- The place that a path leads to, whether or not anything is there. -/
def locate (t : FileTree) (path : String) : Except FileFault (List String) :=
  if !FilePath.isUsable path then .error .badName
  else if path = "" then .error .missing
  else (FilePath.steps path).foldlM t.next []

def read (t : FileTree) (path : String) : Except FileFault (List UInt8) := do
  let place ← t.locate path
  match t.content? place with
  | some bytes => if FilePath.isFolderOnly path then throw .notFolder else return bytes
  | none => throw (if t.isFolder place then .isFolder else .missing)

/-- The content of a file as text. -/
def readText (t : FileTree) (path : String) : Except FileFault String := do
  match Text.ofUtf8? (← t.read path) with
  | some s => return s
  | none => throw .notText

/-- The tree with a file whose content is made from the content it had, if it was there. -/
def update (t : FileTree) (path : String) (f : Option (List UInt8) → List UInt8) :
    Except FileFault FileTree := do
  let place ← t.locate path
  if FilePath.isFolderOnly path || t.isFolder place then throw .isFolder
  let others := t.files.filter fun g => g.1 ≠ place
  return { t with files := (place, f (t.content? place)) :: others }

def withFolder (t : FileTree) (place : List String) : FileTree :=
  if t.isFolder place then t else { t with folders := place :: t.folders }

/-- Makes the folders that steps from a folder lead through, up to the first one that cannot be
made. -/
def makeFolders (t : FileTree) (folder : List String) :
    List FilePath.Step → Except FileFault Unit × FileTree
  | [] => (.ok (), t)
  | step :: steps =>
    match step.destination folder with
    | .error fault => (.error fault, t)
    | .ok place =>
      if t.isFile place then (.error .notFolder, t)
      else (t.withFolder place).makeFolders place steps

def prepare (t : FileTree) (path : String) : Except FileFault Unit × FileTree :=
  if FilePath.isUsable (FilePath.parent path) then
    t.makeFolders [] (FilePath.steps (FilePath.parent path))
  else (.error .badName, t)

/-- Adds to the end of a file, which is made first, with its folders, if it is not there. The tree
is given back also if this fails, because folders may have been made. -/
def append (t : FileTree) (path : String) (bytes : List UInt8) : Except FileFault Unit × FileTree :=
  match t.prepare path with
  | (.error fault, t) => (.error fault, t)
  | (.ok (), t) =>
    match t.update path fun old => old.getD [] ++ bytes with
    | .error fault => (.error fault, t)
    | .ok t => (.ok (), t)

/-- Writes a file anew, with its folders. -/
def write (t : FileTree) (path : String) (bytes : List UInt8) : Except FileFault FileTree :=
  match t.prepare path with
  | (.error fault, _) => .error fault
  | (.ok (), t) => t.update path fun _ => bytes

end FileTree

end Countersign
