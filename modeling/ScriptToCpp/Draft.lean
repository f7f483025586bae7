import ScriptToCpp.Cpp.Output
import ScriptToCpp.Grammar.Control

/-! What the compiler has produced so far, and what the actions of the grammar do to it. -/
namespace ScriptToCpp

structure Draft where
  /-- The names declared, the latest first, each of them once. There are no scopes. -/
  names : List String
  /-- How far the next line is indented. -/
  depth : Nat
  output : Cpp.Output
  tracing : Bool
  /-- The rules entered, the latest first, if they are traced. -/
  entered : List Rule
  deriving DecidableEq

namespace Draft

/-- The body of the generated program is indented once. -/
def start (output : Cpp.Output) (tracing : Bool) : Draft :=
  ⟨[], 1, output, tracing, []⟩

def write (draft : Draft) (text : String) : Draft :=
  { draft with output := draft.output.write text }

def perform (draft : Draft) : Action → Draft
  | .note rule => if draft.tracing then { draft with entered := rule :: draft.entered } else draft
  | .startLine text => draft.write (Cpp.Output.indentation draft.depth ++ text)
  | .write text => draft.write text
  | .enroll name => { draft with names := draft.names.insert name }
  | .indent => { draft with depth := draft.depth + 1 }
  | .unindent => { draft with depth := draft.depth - 1 }

def performAll (draft : Draft) (actions : List Action) : Draft :=
  actions.foldl perform draft

/-- The program starts: its trace is a new one, and its first lines are written. -/
def opened (draft : Draft) : Draft :=
  let draft := { draft with entered := [] }.perform (.note .program)
  { draft with output := Cpp.Output.preamble.foldl Cpp.Output.headerLine draft.output }

/-- The program is complete, up to its last lines, which are written here. -/
def closed (draft : Draft) : Draft :=
  { draft with output := Cpp.Output.closing.foldl Cpp.Output.writeLine draft.output }

/-- What the trace of the program at hand shows. -/
def trace (draft : Draft) : String :=
  Rule.trace draft.entered.reverse

end Draft
end ScriptToCpp
