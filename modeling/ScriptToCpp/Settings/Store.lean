import ScriptToCpp.Files.Access
import ScriptToCpp.Settings

/-! The settings file: where it is, and how settings are kept in it. -/
namespace ScriptToCpp.Settings

/-- Each profile has a settings file of its own. -/
def path (environment : Environment) : Path :=
  ((Path.ofString environment.homePath).join (.ofString ".lwc")
    |>.join (.ofString environment.profileName)).join (.ofString "config.json")

/-- What is stored, as far as it can be read, with what the environment says about tracing. -/
def ofStored (environment : Environment) (stored : Option String) : Settings :=
  let settings := (stored.bind parse?).getD (default environment)
  { settings with verbose := environment.verbose?.getD settings.verbose }

variable {m : Type → Type} [Monad m] [FileAccess m]

/-- The settings that hold in an environment. -/
def load (environment : Environment) : m Settings := do
  match ← FileAccess.readText (path environment) with
  | .ok text => return ofStored environment (some text)
  | .error _ => return ofStored environment none

/-- Makes the settings those of the environment's profile. -/
def save (settings : Settings) (environment : Environment) : m (Except FileError Unit) := do
  let path := path environment
  match ← FileAccess.makeDirectories (path.parent?.getD ⟨[]⟩) with
  | .error fault => return .error fault
  | .ok () => FileAccess.writeText path settings.render

end ScriptToCpp.Settings
