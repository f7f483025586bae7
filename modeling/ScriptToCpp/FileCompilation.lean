import ScriptToCpp.Files.Access
import ScriptToCpp.Session

/-! Compiling from a file into a file. Nothing is written where the script is at fault. -/
namespace ScriptToCpp

variable {m : Type → Type} [Monad m] [FileAccess m]

/-- What reading a script failed with. -/
def Failure.ofReading (path : Path) : FileError → Failure
  | .missing => .notFound ("Cannot read " ++ path.display ++ ": " ++ FileError.missing.message)
  | fault => .file fault

def readSource (path : Path) : m (Except Failure String) := do
  match ← FileAccess.readText path with
  | .ok source => return .ok source
  | .error fault => return .error (.ofReading path fault)

/-- The result of a compilation, and the trace that was shown on the way. -/
structure FileCompilation where
  result : Except Failure Path
  trace : String := ""

def Cpp.Output.save (output : Cpp.Output) : m (Except FileError Unit) :=
  FileAccess.writeText output.path output.text

/-- Compiles the script that `input` holds into the file `output`. -/
def compileFile (input output : Path) (tracing : Bool) : m FileCompilation := do
  match ← readSource input with
  | .error failure => return { result := .error failure }
  | .ok source =>
    match Session.ofSource source (.empty output) tracing with
    | .error failure => return { result := .error failure }
    | .ok session =>
      match session.program with
      | (.error failure, session) =>
        return { result := .error failure, trace := session.draft.trace }
      | (.ok (), session) =>
        let trace := session.draft.trace
        match ← session.draft.output.save with
        | .error fault => return { result := .error (.file fault), trace }
        | .ok () => return { result := .ok session.draft.output.path, trace }

end ScriptToCpp
