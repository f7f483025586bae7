import ScriptToCpp.Command.Request
import ScriptToCpp.FileCompilation
import ScriptToCpp.Settings.Store
import ScriptToCpp.Token.Listing

/-! Running a command: what it prints, and the code that it ends with. -/
namespace ScriptToCpp

structure Outcome where
  code : Nat
  stdout : String
  stderr : String
  deriving DecidableEq

namespace Outcome

def success (stdout : String) : Outcome :=
  ⟨0, stdout, ""⟩

/-- A failure is told behind whatever was printed before. -/
def failure (stdout message : String) : Outcome :=
  ⟨1, stdout, "Error: " ++ message ++ "\n"⟩

def version : Outcome :=
  success "lightweight-compiler 0.1.0\n"

def help (topic : Topic) : Outcome :=
  success topic.text

def usage : Outcome :=
  ⟨2, "", "Usage: lwc [-v|--verbose] [FILE] [tokens FILE [--json] | config show | config init]\n"⟩

end Outcome

def banner : String :=
  "-------------------Light weight compiler-------------------\n"

namespace Command

variable {m : Type → Type} [Monad m] [FileAccess m]

def runCompile (file : Path) (settings : Settings) : m Outcome := do
  let greeting := if settings.banner then banner else ""
  let compilation ← compileFile file Cpp.Output.defaultPath settings.verbose
  let shown := greeting ++ compilation.trace
  match compilation.result with
  | .ok _ => return .success (shown ++ "Parsing completed.\n")
  | .error failure => return .failure shown failure.message

def runListTokens (file : Path) (json : Bool) : m Outcome := do
  match ← readSource file with
  | .error failure => return .failure "" failure.message
  | .ok source =>
    match tokenize source with
    | .error fault => return .failure "" fault.message
    | .ok tokens =>
      return .success (if json then Token.jsonListing tokens else Token.listing tokens)

/-- Settings that are there already are left alone. -/
def runInitSettings (environment : Environment) : m Outcome := do
  let path := Settings.path environment
  if ← FileAccess.isPresent path then
    return .success ("Config file already exists at: " ++ path.display ++ "\n")
  else
    match ← (Settings.default environment).save environment with
    | .ok () => return .success ("Initialized new config file at: " ++ path.display ++ "\n")
    | .error fault => return .failure "" fault.message

def run (settings : Settings) (environment : Environment) : Command → m Outcome
  | .compile (some file) => runCompile file settings
  | .compile none => return .failure "" "compiler needs source file as argument."
  | .listTokens file json => runListTokens file json
  | .showSettings => return .success (settings.render ++ "\n")
  | .initSettings => runInitSettings environment

end Command

variable {m : Type → Type} [Monad m] [FileAccess m]

/-- Runs a command with the stored settings; a flag of the request can only turn tracing on. -/
def Request.run (request : Request) (environment : Environment) : m Outcome := do
  let settings ← Settings.load environment
  let settings := { settings with verbose := settings.verbose || request.verbose }
  request.command.run settings environment

/-- Runs a command line. Its words are read before anything else happens. -/
def runArguments (arguments : List Request.Argument) (environment : Environment) : m Outcome :=
  match Request.ofArguments arguments with
  | .error .usage => return .usage
  | .error .version => return .version
  | .error (.help topic) => return .help topic
  | .ok request => request.run environment

end ScriptToCpp
