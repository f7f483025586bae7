import ScriptToCpp.Command.Run

/-! The command line program. It runs on the files of the machine, and prints what a command has to
say once the command is over. -/
namespace ScriptToCpp

/-- The reasons that the compiler tells apart. The system may give a code with its sign reversed. -/
def FileError.ofSystem : IO.Error → FileError
  | .noFileOrDirectory .. => .missing
  | .alreadyExists .. => .alreadyExists
  | .inappropriateType _ code details =>
    let number := min code (0 - code)
    if number = 20 then .notDirectory else if number = 21 then .isDirectory else .other details
  | fault => .other (toString fault)

def attempting {α : Type} (operation : IO α) : IO (Except FileError α) := do
  match ← operation.toBaseIO with
  | .ok value => return .ok value
  | .error fault => return .error (.ofSystem fault)

def readBytes (path : Path) : IO (Except FileError ByteArray) :=
  attempting (IO.FS.readBinFile path.display)

instance : FileAccess IO where
  read := readBytes
  write path content := attempting (IO.FS.writeBinFile path.display content)
  makeDirectory path := attempting (IO.FS.createDir path.display)
  isDirectory path := do
    match ← readBytes path with
    | .error .isDirectory => return true
    | _ => return false
  isPresent path := do
    match ← readBytes path with
    | .error .missing | .error .notDirectory | .error .zeroInPath => return false
    | _ => return true

def Environment.current : IO Environment := do
  let lookup (name : String) : IO (Option ByteArray) := do
    return (← IO.getEnv name).map String.toUTF8
  return {
    home := ← lookup "HOME"
    profile := ← lookup "LWC_ENV"
    verbose := ← lookup "LWC_VERBOSE" }

end ScriptToCpp

def main (arguments : List String) : IO UInt32 := do
  let environment ← ScriptToCpp.Environment.current
  let outcome ← ScriptToCpp.runArguments (arguments.map ScriptToCpp.Request.bytesOf) environment
  IO.print outcome.stdout
  (← IO.getStdout).flush
  IO.eprint outcome.stderr
  return outcome.code.toUInt32
