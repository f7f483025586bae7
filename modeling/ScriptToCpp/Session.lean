import ScriptToCpp.Draft
import ScriptToCpp.Token.Window

/-! Compiling a script. A session can be asked for the program more than once, also after a fault.
It then goes on from the token at hand, with the names, the indentation and the code it has. -/
namespace ScriptToCpp

/-- Drives the grammar over the tokens, starting in the given state. -/
def Window.run (window : Window) (draft : Draft) (control : Control) :
    Except Failure Unit × Window × Draft :=
  let reaction := control.react draft.names window.current
  let draft := draft.performAll reaction.before
  match verdict : reaction.verdict with
  | .accept => (.ok (), window, draft)
  | .refuse cause => (.error (.grammatical ⟨cause, window.current⟩), window, draft)
  | .shift after next =>
    match moved : window.shift with
    | (.error fault, window) => (.error (.lexical fault), window, draft)
    | (.ok (), further) =>
      have : further.size < window.size :=
        Window.shift_size_lt moved fun last => control.react_eof _ last after next verdict
      further.run (draft.performAll after) next
termination_by window.size

structure Session where
  window : Window
  draft : Draft
  deriving DecidableEq

namespace Session

/-- Reads the first tokens. What is compiled goes behind what `output` holds already. -/
def ofSource (source : String) (output : Cpp.Output) (tracing : Bool) : Except Failure Session :=
  match Window.ofSource source with
  | .ok window => .ok ⟨window, .start output tracing⟩
  | .error fault => .error (.lexical fault)

/-- Compiles from the token at hand to the end of the script. What was written before a fault
stays. -/
def program (session : Session) : Except Failure Unit × Session :=
  match session.window.run session.draft.opened .start with
  | (.ok (), window, draft) => (.ok (), ⟨window, draft.closed⟩)
  | (.error failure, window, draft) => (.error failure, ⟨window, draft⟩)

end Session

/-- The program that a script stands for. -/
def compile (source : String) : Except Failure String := do
  let session ← Session.ofSource source default false
  let (result, session) := session.program
  result
  return session.draft.output.text

end ScriptToCpp
