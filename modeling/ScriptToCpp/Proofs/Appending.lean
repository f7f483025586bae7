import ScriptToCpp.Proofs.Sessions

/-! What a session finds in its output stays there. All that is written goes behind it, and is what
is written to an empty output; nothing else depends on it. -/
namespace ScriptToCpp

namespace Cpp.Output
variable {given output plain : Output}

/-- The first output holds what was given, and behind it what the second one holds, where nothing
was given. -/
def Behind (given output plain : Output) : Prop :=
  ∃ header code, plain = ⟨defaultPath, header, "\n" ++ code⟩ ∧
    output = ⟨given.path, given.header ++ header, given.code ++ code⟩

namespace Behind

theorem start (given : Output) : given.Behind given default := by
  refine ⟨"", "", rfl, ?_⟩
  rw [String.append_empty, String.append_empty]

theorem write (behind : given.Behind output plain) (text : String) :
    given.Behind (output.write text) (plain.write text) := by
  obtain ⟨header, code, rfl, rfl⟩ := behind
  refine ⟨header, code ++ text, ?_, ?_⟩ <;> rw [← String.append_assoc] <;> rfl

theorem headerLine (behind : given.Behind output plain) (text : String) :
    given.Behind (output.headerLine text) (plain.headerLine text) := by
  obtain ⟨header, code, rfl, rfl⟩ := behind
  refine ⟨header ++ text ++ "\n", code, rfl, ?_⟩
  rw [← String.append_assoc, ← String.append_assoc]
  rfl

end Behind
end Cpp.Output

namespace Draft
variable {given : Cpp.Output} {draft plain : Draft}

/-- The drafts differ only in what the output of the first one was given. -/
structure Behind (given : Cpp.Output) (draft plain : Draft) : Prop where
  names : draft.names = plain.names
  depth : draft.depth = plain.depth
  tracing : draft.tracing = plain.tracing
  entered : draft.entered = plain.entered
  output : given.Behind draft.output plain.output

namespace Behind

theorem start (given : Cpp.Output) (tracing : Bool) :
    Behind given (.start given tracing) (.start default tracing) :=
  ⟨rfl, rfl, rfl, rfl, .start given⟩

theorem perform (behind : Behind given draft plain) (action : Action) :
    Behind given (draft.perform action) (plain.perform action) := by
  obtain ⟨names, depth, tracing, entered, output⟩ := behind
  cases action with
  | note rule =>
    rw [perform_note, perform_note]
    refine ⟨names, depth, tracing, ?_, output⟩
    rw [tracing, entered]
  | startLine text =>
    refine ⟨names, depth, tracing, entered, ?_⟩
    rw [Draft.perform, Draft.perform, depth]
    exact output.write _
  | write text => exact ⟨names, depth, tracing, entered, output.write text⟩
  | enroll name => exact ⟨congrArg (List.insert name) names, depth, tracing, entered, output⟩
  | indent => exact ⟨names, congrArg (· + 1) depth, tracing, entered, output⟩
  | unindent => exact ⟨names, congrArg (· - 1) depth, tracing, entered, output⟩

theorem performAll (behind : Behind given draft plain) (actions : List Action) :
    Behind given (draft.performAll actions) (plain.performAll actions) := by
  induction actions generalizing draft plain with
  | nil => exact behind
  | cons action rest ih => exact ih (behind.perform action)

theorem opened (behind : Behind given draft plain) : Behind given draft.opened plain.opened := by
  obtain ⟨names, depth, tracing, _, output⟩ := behind
  unfold Draft.opened
  rw [perform_note, perform_note]
  refine ⟨names, depth, tracing, ?_, ?_⟩
  · rw [tracing]
  · exact (((output.headerLine _).headerLine _).headerLine _).headerLine _

theorem closed (behind : Behind given draft plain) : Behind given draft.closed plain.closed := by
  obtain ⟨names, depth, tracing, entered, output⟩ := behind
  exact ⟨names, depth, tracing, entered, ((output.write _).write _).write _⟩

theorem trace (behind : Behind given draft plain) : draft.trace = plain.trace := by
  rw [Draft.trace, Draft.trace, behind.entered]

end Behind
end Draft

namespace Session
variable {given : Cpp.Output} {session plain : Session}

/-- The sessions are at the same token, and only what the output was given sets them apart. -/
structure Behind (given : Cpp.Output) (session plain : Session) : Prop where
  window : session.window = plain.window
  draft : Draft.Behind given session.draft plain.draft

/-- Asked for the program both give the same result. -/
theorem Behind.program (behind : Behind given session plain) :
    session.program.1 = plain.program.1 ∧ Behind given session.program.2 plain.program.2 := by
  obtain ⟨result, further, actions, uniform⟩ :=
    plain.window.run_uniform plain.draft.opened .start
  have performed := behind.draft.opened.performAll actions
  unfold Session.program
  rw [behind.window, uniform _ behind.draft.opened.names, uniform _ rfl]
  cases result with
  | ok _ => exact ⟨rfl, rfl, performed.closed⟩
  | error failure => exact ⟨rfl, rfl, performed⟩

theorem Behind.programs (behind : Behind given session plain) (count : Nat) :
    (session.programs count).1 = (plain.programs count).1 ∧
      Behind given (session.programs count).2 (plain.programs count).2 := by
  induction count generalizing session plain with
  | zero => exact ⟨rfl, behind⟩
  | succ count ih =>
    obtain ⟨result, next⟩ := behind.program
    obtain ⟨answers, last⟩ := ih next
    refine ⟨?_, last⟩
    simp only [Session.programs, result, next.draft.trace, answers]

end Session

/-- Whatever output a script is compiled into, it is only appended to. Asked for the program any
number of times, behind faults too, a session gives the results, the traces and the names that it
gives with an empty output; and what the empty output has then, in its header and in its code behind
the blank line, stands behind what the output held before, whose path is kept. -/
theorem programs_append (source : String) (output : Cpp.Output) (tracing : Bool) :
    (∃ failure, Session.ofSource source output tracing = .error failure ∧
      Session.ofSource source default tracing = .error failure) ∨
    ∃ session plain, Session.ofSource source output tracing = .ok session ∧
      Session.ofSource source default tracing = .ok plain ∧
      ∀ count, (session.programs count).1 = (plain.programs count).1 ∧
        (session.programs count).2.draft.names = (plain.programs count).2.draft.names ∧
        ∃ header code,
          (plain.programs count).2.draft.output =
            ⟨Cpp.Output.defaultPath, header, "\n" ++ code⟩ ∧
          (session.programs count).2.draft.output =
            ⟨output.path, output.header ++ header, output.code ++ code⟩ := by
  unfold Session.ofSource
  cases Window.ofSource source with
  | error fault => exact .inl ⟨.lexical fault, rfl, rfl⟩
  | ok window =>
    refine .inr ⟨_, _, rfl, rfl, fun count => ?_⟩
    have start : Session.Behind output ⟨window, .start output tracing⟩
        ⟨window, .start default tracing⟩ := ⟨rfl, .start output tracing⟩
    obtain ⟨answers, last⟩ := start.programs count
    exact ⟨answers, last.draft.names, last.draft.output⟩

end ScriptToCpp
