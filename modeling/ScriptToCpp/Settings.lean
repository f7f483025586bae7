import ScriptToCpp.Environment
import ScriptToCpp.Json.Printer
import ScriptToCpp.Json.Reader

/-! Settings, and their form as a JSON document. -/
namespace ScriptToCpp

structure Settings where
  envName : String
  /-- Show each grammar rule as it is entered. -/
  verbose : Bool := false
  /-- Start a compilation with a line that names the compiler. -/
  banner : Bool := true
  deriving DecidableEq

namespace Settings

/-- What holds where no settings file says otherwise. -/
def default (environment : Environment) : Settings :=
  { envName := environment.profileName }

def toJson (settings : Settings) : Json :=
  .object [(Json.pieces "env_name", .ofString settings.envName),
    (Json.pieces "verbose", .bool settings.verbose),
    (Json.pieces "banner", .bool settings.banner)]

def render (settings : Settings) : String :=
  settings.toJson.render

/-- The values of all members of one name. -/
def valuesOf (name : String) (members : List (List Json.Piece × Json)) : List Json :=
  (members.filter fun member => Json.textOf? member.1 = some name).map Prod.snd

/-- A flag that may be left out, but not be given twice. -/
def flag? (absent : Bool) : List Json → Option Bool
  | [] => some absent
  | [value] => value.bool?
  | _ => none

/-- Members of other names are ignored, as long as their names are texts. -/
def ofMembers? (members : List (List Json.Piece × Json)) : Option Settings := do
  guard (members.all fun member => (Json.textOf? member.1).isSome)
  let [name] := valuesOf "env_name" members | none
  let envName ← name.text?
  let verbose ← flag? false (valuesOf "verbose" members)
  let banner ← flag? true (valuesOf "banner" members)
  return { envName, verbose, banner }

/-- The values alone, in order, where the last ones may be left out. -/
def ofItems? : List Json → Option Settings
  | name :: flags => do
    let envName ← name.text?
    let verbose ← flag? false (flags.take 1)
    let banner ← flag? true (flags.drop 1)
    return { envName, verbose, banner }
  | [] => none

def ofJson? : Json → Option Settings
  | .object members => ofMembers? members
  | .array items => ofItems? items
  | _ => none

def parse? (text : String) : Option Settings :=
  (Json.parse? text).bind ofJson?

end Settings
end ScriptToCpp
