import ScriptToCpp.Text.Blank

/-! The environment variables that matter. A variable that holds no text counts as not set. -/
namespace ScriptToCpp

structure Environment where
  home : Option ByteArray := none
  /-- Which of several settings files applies. -/
  profile : Option ByteArray := none
  /-- Whether compilations are traced, whatever the settings file says. -/
  verbose : Option ByteArray := none

namespace Environment

def text? (value : Option ByteArray) : Option String :=
  value.bind String.fromUTF8?

/-- The directory that settings are kept in: the home directory if there is one, and the current one
otherwise. -/
def homePath (environment : Environment) : String :=
  (text? environment.home).getD "."

def profileName (environment : Environment) : String :=
  (text? environment.profile).getD "default"

/-- Whether a value means yes, in upper or lower case and with or without blanks around it. -/
def isYes (value : String) : Bool :=
  String.ofList ((Text.trim value).toList.map Char.toLower) ∈ ["1", "true", "yes", "on"]

/-- What the environment says about tracing, if anything. -/
def verbose? (environment : Environment) : Option Bool :=
  (text? environment.verbose).map isYes

end Environment
end ScriptToCpp
