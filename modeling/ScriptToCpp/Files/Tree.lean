import ScriptToCpp.Files.Access

/-! A file system as a value: what stands at each place of a tree, and the place from which relative
paths start. A path is walked along one segment after the other, and each segment must start in a
directory. -/
namespace ScriptToCpp

inductive FileEntry where
  | file (content : ByteArray)
  | directory

/-- The names on the way from the root. -/
abbrev Place := List FileName

structure FileTree where
  entries : Place → Option FileEntry
  workingDirectory : Place

namespace FileTree

/-- A tree that holds a working directory and nothing else. -/
def ofWorkingDirectory (place : Place) : FileTree :=
  ⟨fun other => if other <+: place then some .directory else none, place⟩

/-- The root is always there. -/
def entry? (tree : FileTree) (place : Place) : Option FileEntry :=
  if place = [] then some .directory else tree.entries place

def insert (tree : FileTree) (place : Place) (entry : FileEntry) : FileTree :=
  { tree with entries := fun other => if other = place then some entry else tree.entries other }

/-- Where a segment leads from a directory. Nothing lies above the root. -/
def follow (place : Place) (segment : FileName) : Place :=
  if segment = [] || segment = Path.dot then place
  else if segment = Path.dotDot then place.dropLast
  else place ++ [segment]

/-- The place that segments lead to. All that is passed on the way is a directory; what stands at
the end is left open. -/
def walk (tree : FileTree) : Place → List FileName → Except FileError Place
  | place, [] => .ok place
  | place, segment :: segments =>
    match tree.entry? place with
    | none => .error .missing
    | some (.file _) => .error .notDirectory
    | some .directory => walk tree (follow place segment) segments

/-- Where a path starts. -/
def origin (tree : FileTree) (path : Path) : Place :=
  if path.isAbsolute then [] else tree.workingDirectory

/-- Paths that lead nowhere whatever the tree holds. -/
def checkPath (path : Path) : Except FileError Unit :=
  if 0 ∈ path.bytes then .error .zeroInPath
  else if path.bytes = [] then .error .missing
  else .ok ()

/-- What a path leads to, and where that is. -/
def find (tree : FileTree) (path : Path) : Except FileError (Place × FileEntry) := do
  checkPath path
  let place ← tree.walk (tree.origin path) path.segments
  match tree.entry? place with
  | some entry => return (place, entry)
  | none => throw .missing

/-- The segments before the last one that is not empty, and that one. -/
def lastSegment (path : Path) : List FileName × Option FileName :=
  let segments := (path.segments.reverse.dropWhile (· = [])).reverse
  (segments.dropLast, segments.getLast?)

/-- The place that a path gives to a new entry, in a directory that exists; or none if the path can
only stand for a directory that exists. -/
def site (tree : FileTree) (path : Path) : Except FileError (Option Place) := do
  checkPath path
  let (way, last) := lastSegment path
  let directory ← tree.walk (tree.origin path) (way ++ [[]])
  match last with
  | none => return none
  | some name =>
    if name = Path.dot || name = Path.dotDot then return none
    else return some (directory ++ [name])

def endsInSlash (path : Path) : Bool :=
  path.bytes.getLast? == some Path.slash

def read (tree : FileTree) (path : Path) : Except FileError ByteArray := do
  match ← tree.find path with
  | (_, .file content) => return content
  | (_, .directory) => throw .isDirectory

/-- Makes a file or replaces its content. -/
def write (tree : FileTree) (path : Path) (content : ByteArray) : Except FileError FileTree := do
  match ← tree.site path with
  | none => throw .isDirectory
  | some place =>
    if endsInSlash path then throw .isDirectory
    match tree.entry? place with
    | some .directory => throw .isDirectory
    | _ => return tree.insert place (.file content)

def makeDirectory (tree : FileTree) (path : Path) : Except FileError FileTree := do
  match ← tree.site path with
  | none => throw .alreadyExists
  | some place =>
    match tree.entry? place with
    | some _ => throw .alreadyExists
    | none => return tree.insert place .directory

def isDirectory (tree : FileTree) (path : Path) : Bool :=
  match tree.find path with
  | .ok (_, .directory) => true
  | _ => false

def isPresent (tree : FileTree) (path : Path) : Bool :=
  (tree.find path).isOk

/-- An operation that changes the tree, unless it fails. -/
def attempt (change : FileTree → Except FileError FileTree) :
    StateM FileTree (Except FileError Unit) := fun tree =>
  match change tree with
  | .ok tree => (.ok (), tree)
  | .error fault => (.error fault, tree)

instance : FileAccess (StateM FileTree) where
  read path := fun tree => (tree.read path, tree)
  write path content := attempt fun tree => tree.write path content
  makeDirectory path := attempt fun tree => tree.makeDirectory path
  isDirectory path := fun tree => (tree.isDirectory path, tree)
  isPresent path := fun tree => (tree.isPresent path, tree)

end FileTree
end ScriptToCpp
