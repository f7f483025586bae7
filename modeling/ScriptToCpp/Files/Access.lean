import ScriptToCpp.Files.FileError
import ScriptToCpp.Files.Path

/-! What the compiler asks of a file system, and what can be built on that. -/
namespace ScriptToCpp

/-- The file operations. A write that fails changes nothing, and one that succeeds replaces the
whole content. -/
class FileAccess (m : Type → Type) where
  read : Path → m (Except FileError ByteArray)
  write : Path → ByteArray → m (Except FileError Unit)
  makeDirectory : Path → m (Except FileError Unit)
  isDirectory : Path → m Bool
  isPresent : Path → m Bool

namespace FileAccess

variable {m : Type → Type} [Monad m] [FileAccess m]

/-- The content of a file as text. -/
def readText (path : Path) : m (Except FileError String) := do
  match ← read path with
  | .error fault => return .error fault
  | .ok content =>
    match String.fromUTF8? content with
    | some text => return .ok text
    | none => return .error .notText

def writeText (path : Path) (text : String) : m (Except FileError Unit) :=
  write path text.toUTF8

/-- A fault does not count where a directory stands already. -/
def unlessDirectory (path : Path) (fault : FileError) : m (Except FileError Unit) := do
  if ← isDirectory path then return .ok () else return .error fault

/-- Makes a directory and all those above it that are missing. -/
def makeDirectories (path : Path) : m (Except FileError Unit) := do
  if path.bytes = [] then return .ok ()
  else
    match ← makeDirectory path with
    | .ok () => return .ok ()
    | .error .missing =>
      match parent : path.parent? with
      | none => return .error (.other "failed to create whole tree")
      | some above =>
        have : above.bytes.length < path.bytes.length := Path.parent?_length_lt parent
        match ← makeDirectories above with
        | .error fault => return .error fault
        | .ok () =>
          match ← makeDirectory path with
          | .ok () => return .ok ()
          | .error fault => unlessDirectory path fault
    | .error fault => unlessDirectory path fault
termination_by path.bytes.length

end FileAccess
end ScriptToCpp
