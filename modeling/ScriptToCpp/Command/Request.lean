import ScriptToCpp.Command.Help
import ScriptToCpp.Files.Path

/-! What the words of a command line ask for. Words are read from left to right, and the first one
that decides the matter does so. -/
namespace ScriptToCpp

inductive Command where
  | compile (file : Option Path)
  | listTokens (file : Path) (json : Bool)
  | showSettings
  | initSettings
  deriving DecidableEq

structure Request where
  verbose : Bool
  command : Command
  deriving DecidableEq

namespace Request

/-- Why there is no command to run. -/
inductive Stop where
  /-- The words make no sense. -/
  | usage
  /-- They ask which version this is. -/
  | version
  /-- They ask what can be asked for. -/
  | help (topic : Topic)
  deriving DecidableEq

abbrev Argument := List UInt8

def bytesOf (text : String) : Argument :=
  text.toUTF8.data.toList

def dash : UInt8 := 0x2d

inductive Shape where
  /-- Two dashes: no flags and no commands follow. -/
  | separator
  | longFlag (name : Argument)
  | shortFlags (letters : Argument)
  /-- Also a single dash, and a word of no letters. -/
  | word

def shape : Argument → Shape
  | first :: second :: rest =>
    if first ≠ dash then .word
    else if second ≠ dash then .shortFlags (second :: rest)
    else if rest = [] then .separator
    else .longFlag rest
  | _ => .word

/-- A word that names the file; there is one at most. -/
def addFile (file : Option Path) (argument : Argument) : Except Stop (Option Path) :=
  if file.isSome then .error .usage else .ok (some ⟨argument⟩)

/-- A file is not called by an empty word. This is found out where a flag or nothing more follows,
not at the word itself: a command that follows is read first. -/
def checkFile (file : Option Path) : Except Stop (Option Path) :=
  if file = some ⟨[]⟩ then .error .usage else .ok file

/-- A flag is given once at most. -/
def setVerbose (verbose : Bool) : Except Stop Bool :=
  if verbose then .error .usage else .ok true

def longFlag (verbose : Bool) (name : Argument) : Except Stop Bool :=
  if name = bytesOf "help" then .error (.help .program)
  else if name = bytesOf "version" then .error .version
  else if name = bytesOf "verbose" then setVerbose verbose
  else .error .usage

def shortFlags (verbose : Bool) : Argument → Except Stop Bool
  | [] => .ok verbose
  | letter :: letters =>
    if [letter] = bytesOf "h" then .error (.help .program)
    else if [letter] = bytesOf "V" then .error .version
    else if [letter] = bytesOf "v" then do
      shortFlags (← setVerbose verbose) letters
    else .error .usage

/-- Behind a command, the only flag that is a letter is the one for help. -/
def commandLetters (topic : Topic) (letters : Argument) : Stop :=
  if letters.head? = (bytesOf "h").head? then .help topic else .usage

/-- Behind a command, a long flag that is not the command's own. -/
def commandFlag (topic : Topic) (name : Argument) : Stop :=
  if name = bytesOf "help" then .help topic else .usage

/-- The command of that name, among those that may follow. -/
def part? (topic : Topic) (word : Argument) : Option Topic :=
  (topic.parts.find? fun (name, _) => bytesOf name = word).map Prod.snd

/-- What follows the word for help: the commands that lead to the one that is to be explained. -/
def helpWords (topic : Topic) : List Argument → Stop
  | [] => .help topic
  | word :: words =>
    match part? topic word with
    | some part => helpWords part words
    | none => .usage

def tokensCommand (file : Option Path) (json : Bool) : Except Stop Command := do
  match ← checkFile file with
  | some file => .ok (.listTokens file json)
  | none => .error .usage

/-- What follows the word for listing tokens. -/
def tokens (file : Option Path) (json : Bool) : List Argument → Except Stop Command
  | [] => tokensCommand file json
  | argument :: arguments =>
    match shape argument with
    | .separator => do tokensCommand (← arguments.foldlM addFile file) json
    | .longFlag name => do
      let file ← checkFile file
      if name = bytesOf "json" && !json then tokens file true arguments
      else .error (commandFlag .tokens name)
    | .shortFlags letters => do
      let _ ← checkFile file
      .error (commandLetters .tokens letters)
    | .word => do tokens (← addFile file argument) json arguments

/-- What follows a command that needs nothing else. -/
def nothing (topic : Topic) (command : Command) : List Argument → Except Stop Command
  | [] => .ok command
  | argument :: arguments =>
    match shape argument with
    | .separator => if arguments = [] then .ok command else .error .usage
    | .longFlag name => .error (commandFlag topic name)
    | .shortFlags letters => .error (commandLetters topic letters)
    | .word => .error .usage

/-- What follows the word for settings. -/
def settings : List Argument → Except Stop Command
  | [] => .error .usage
  | argument :: arguments =>
    match shape argument with
    | .separator => .error .usage
    | .longFlag name => .error (commandFlag .config name)
    | .shortFlags letters => .error (commandLetters .config letters)
    | .word =>
      match part? .config argument with
      | some .showSettings => nothing .showSettings .showSettings arguments
      | some .initSettings => nothing .initSettings .initSettings arguments
      | some _ => .error (helpWords .config arguments)
      | none => .error .usage

/-- The words that come before a command. A file given there is of no use to the command. -/
def read (verbose : Bool) (file : Option Path) : List Argument → Except Stop Request
  | [] => do return ⟨verbose, .compile (← checkFile file)⟩
  | argument :: arguments =>
    match shape argument with
    | .separator => do
      return ⟨verbose, .compile (← checkFile (← arguments.foldlM addFile file))⟩
    | .longFlag name => do
      let file ← checkFile file
      read (← longFlag verbose name) file arguments
    | .shortFlags letters => do
      let file ← checkFile file
      read (← shortFlags verbose letters) file arguments
    | .word =>
      match part? .program argument with
      | some .tokens => do
        let command ← tokens none false arguments
        let _ ← checkFile file
        return ⟨verbose, command⟩
      | some .config => do
        let command ← settings arguments
        let _ ← checkFile file
        return ⟨verbose, command⟩
      | some _ => .error (helpWords .program arguments)
      | none => do read verbose (← addFile file argument) arguments

def ofArguments (arguments : List Argument) : Except Stop Request :=
  read false none arguments

end Request
end ScriptToCpp
