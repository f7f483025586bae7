import ScriptToCpp.Files.Path

/-! The generated program while it is being written: lines that come first, and code that grows at
its end. -/
namespace ScriptToCpp.Cpp

structure Output where
  path : Path
  header : String
  code : String
  deriving DecidableEq

namespace Output

/-- Where the generated program goes unless a path is given. -/
def defaultPath : Path := .ofString "output.cpp"

/-- Nothing but the blank line that parts header and code. -/
def empty (path : Path) : Output :=
  ⟨path, "", "\n"⟩

instance : Inhabited Output := ⟨empty defaultPath⟩

def write (output : Output) (text : String) : Output :=
  { output with code := output.code ++ text }

def writeLine (output : Output) (text : String) : Output :=
  output.write (text ++ "\n")

def headerLine (output : Output) (text : String) : Output :=
  { output with header := output.header ++ text ++ "\n" }

/-- The generated program. -/
def text (output : Output) : String :=
  output.header ++ output.code

/-- What stands before the first statement. -/
def preamble : List String :=
  ["#include<iostream>", "using namespace std;", "", "int main() \x7b"]

/-- One level of indentation. -/
def indent : String := "    "

/-- What stands behind the last statement. -/
def closing : List String :=
  ["", indent ++ "return 0;", "\x7d"]

def indentation (depth : Nat) : String :=
  String.join (List.replicate depth indent)

end Output
end ScriptToCpp.Cpp
