import ScriptToCpp.Location
import ScriptToCpp.Token.Kind

/-! Tokens: what a script consists of once blanks and comments are gone. -/
namespace ScriptToCpp

/-- The text of a string token is what stands between its quotes; every other text is the spelling
itself. The location is that of the first character of the spelling. -/
structure Token where
  kind : Kind
  text : String
  location : Location
  deriving DecidableEq

end ScriptToCpp
