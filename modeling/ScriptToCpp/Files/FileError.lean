/-! Why a file operation failed, and how that is reported. -/
namespace ScriptToCpp

inductive FileError where
  /-- Nothing is there. -/
  | missing
  /-- Something is there already. -/
  | alreadyExists
  /-- The way leads through something that is not a directory. -/
  | notDirectory
  /-- A directory stands where a file is needed. -/
  | isDirectory
  /-- The content is no text. -/
  | notText
  /-- The path holds a zero byte. -/
  | zeroInPath
  /-- Any other reason, in the words of the system. -/
  | other (text : String)
  deriving DecidableEq

def FileError.message : FileError → String
  | missing => "No such file or directory (os error 2)"
  | alreadyExists => "File exists (os error 17)"
  | notDirectory => "Not a directory (os error 20)"
  | isDirectory => "Is a directory (os error 21)"
  | notText => "stream did not contain valid UTF-8"
  | zeroInPath => "file name contained an unexpected NUL byte"
  | other text => text

end ScriptToCpp
