import ScriptToCpp.Text.Aligned

/-! The help texts. There is one for the program and one for each of its commands, which have their
places in a tree. -/
namespace ScriptToCpp

/-- What is explained. -/
inductive Topic where
  | program
  | tokens
  | config
  | showSettings
  | initSettings
  /-- The command that explains others, of the program or of the settings. -/
  | help (ofSettings : Bool)
  deriving DecidableEq

namespace Topic

/-- The commands that may follow. -/
def parts : Topic → List (String × Topic)
  | program => [("tokens", tokens), ("config", config), ("help", help false)]
  | config => [("show", showSettings), ("init", initSettings), ("help", help true)]
  | tokens | showSettings | initSettings | help _ => []

def about : Topic → String
  | program => "Lightweight compiler: translates scripts to C++"
  | tokens => "Print the token stream of a source file"
  | config => "Manage compiler configuration"
  | showSettings => "Show the current configuration"
  | initSettings => "Write a config file with defaults"
  | help _ => "Print this message or the help of the given subcommand(s)"

def usage : Topic → String
  | program => "lwc [OPTIONS] [FILE] [COMMAND]"
  | tokens => "lwc tokens [OPTIONS] <FILE>"
  | config => "lwc config <COMMAND>"
  | showSettings => "lwc config show"
  | initSettings => "lwc config init"
  | help false => "lwc help [COMMAND]..."
  | help true => "lwc config help [COMMAND]..."

/-- Each with what is said about it. -/
def arguments : Topic → List (String × String)
  | program => [("[FILE]", "Source file to compile into output.cpp")]
  | tokens => [("<FILE>", "")]
  | help _ => [("[COMMAND]...", "Print help for the subcommand(s)")]
  | config | showSettings | initSettings => []

def options : Topic → List (String × String)
  | program => [("-v, --verbose", "Print each grammar rule as it is parsed"),
      ("-h, --help", "Print help"), ("-V, --version", "Print version")]
  | tokens => [("    --json", "Print the tokens as a JSON array"), ("-h, --help", "Print help")]
  | config | showSettings | initSettings => [("-h, --help", "Print help")]
  | help _ => []

/-- A list under a title, in two columns. Where there is nothing to list, the title is left out. -/
def listing (title : String) (entries : List (String × String)) : String :=
  let width := entries.foldl (fun width (name, _) => max width name.length) 0
  let line := fun (name, text) => "  " ++ Text.pad .left width name ++ "  " ++ text ++ "\n"
  if entries = [] then "" else "\n" ++ title ++ ":\n" ++ String.join (entries.map line)

def text (topic : Topic) : String :=
  topic.about ++ "\n\nUsage: " ++ topic.usage ++ "\n" ++
    listing "Commands" (topic.parts.map fun (name, part) => (name, part.about)) ++
    listing "Arguments" topic.arguments ++ listing "Options" topic.options

end Topic
end ScriptToCpp
