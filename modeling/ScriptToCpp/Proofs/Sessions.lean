import ScriptToCpp.Proofs.Halting

/-! What a session depends on. Of what the compiler holds, only the names decide what it does next:
where the output goes, what it holds already and whether rules are traced is never looked at. So
sessions that differ in nothing else go on alike, program after program, also behind faults. -/
namespace ScriptToCpp

namespace Window

/-- The actions that are taken, and how it ends, are the same for all drafts with the same names. -/
theorem run_uniform (window : Window) (draft : Draft) (control : Control) :
    ∃ result further actions, ∀ other : Draft, other.names = draft.names →
      window.run other control = (result, further, other.performAll actions) := by
  -- A draft with the same names gets the same reaction, whatever the verdict.
  have reacts : ∀ {window : Window} {draft other : Draft} {control : Control} {verdict : Verdict},
      other.names = draft.names →
      (control.react draft.names window.current).verdict = verdict →
      control.react other.names window.current =
        ⟨(control.react draft.names window.current).before, verdict⟩ := by
    intro window draft other control verdict same found
    rw [same]
    exact congrArg (Reaction.mk _) found
  induction window, draft, control using Window.run.induct with
  | case1 window draft control reaction verdict =>
    exact ⟨.ok (), window, _, fun other same => run_accept (reacts same verdict)⟩
  | case2 window draft control reaction cause verdict =>
    exact ⟨_, window, _, fun other same => run_refuse (reacts same verdict)⟩
  | case3 window draft control reaction after next verdict fault further moved =>
    exact ⟨_, further, _, fun other same => run_fault (reacts same verdict) moved⟩
  | case4 window draft control reaction _ after next verdict further moved _ ih =>
    obtain ⟨result, last, actions, uniform⟩ := ih
    refine ⟨result, last, reaction.before ++ after ++ actions, fun other same => ?_⟩
    rw [run_shift (reacts same verdict) moved, uniform, ← Draft.performAll_append]
    rw [← Draft.performAll_append, Draft.performAll_names, Draft.performAll_names, same]

end Window

namespace Action

/-- The rules that are entered by some actions, the first one first. -/
def rules : List Action → List Rule
  | [] => []
  | .note rule :: rest => rule :: rules rest
  | _ :: rest => rules rest

theorem rules_append (actions further : List Action) :
    rules (actions ++ further) = rules actions ++ rules further := by
  induction actions with
  | nil => rfl
  | cons action rest ih =>
    cases action with
    | note rule => exact congrArg (rule :: ·) ih
    | _ => exact ih

end Action

namespace Draft
variable {draft other : Draft}

/-- The drafts differ at most in where their output goes and in what is traced. -/
structure Agrees (draft other : Draft) : Prop where
  names : draft.names = other.names
  depth : draft.depth = other.depth
  header : draft.output.header = other.output.header
  code : draft.output.code = other.output.code

theorem Agrees.output (agrees : draft.Agrees other)
    (path : draft.output.path = other.output.path) : draft.output = other.output := by
  obtain ⟨_, _, header, code⟩ := agrees
  calc draft.output
      = ⟨draft.output.path, draft.output.header, draft.output.code⟩ := rfl
    _ = ⟨other.output.path, other.output.header, other.output.code⟩ := by rw [path, header, code]
    _ = other.output := rfl

/-- A rule that is entered leaves its mark in the trace, if anywhere. -/
theorem perform_note (draft : Draft) (rule : Rule) :
    draft.perform (.note rule) = { draft with
      entered := if draft.tracing then rule :: draft.entered else draft.entered } := by
  rw [perform]
  by_cases on : draft.tracing = true
  · rw [if_pos on, if_pos on]
  · rw [if_neg on, if_neg on]

theorem Agrees.perform (agrees : draft.Agrees other) (action : Action) :
    (draft.perform action).Agrees (other.perform action) := by
  obtain ⟨names, depth, header, code⟩ := agrees
  cases action with
  | note rule =>
    rw [perform_note, perform_note]
    exact ⟨names, depth, header, code⟩
  | startLine text =>
    refine ⟨names, depth, header, ?_⟩
    simp only [Draft.perform, write, Cpp.Output.write, depth, code]
  | write text =>
    refine ⟨names, depth, header, ?_⟩
    simp only [Draft.perform, write, Cpp.Output.write, code]
  | enroll name => exact ⟨congrArg (List.insert name) names, depth, header, code⟩
  | indent => exact ⟨names, congrArg (· + 1) depth, header, code⟩
  | unindent => exact ⟨names, congrArg (· - 1) depth, header, code⟩

theorem Agrees.performAll (agrees : draft.Agrees other) (actions : List Action) :
    (draft.performAll actions).Agrees (other.performAll actions) := by
  induction actions generalizing draft other with
  | nil => exact agrees
  | cons action rest ih => exact ih (agrees.perform action)

theorem Agrees.opened (agrees : draft.Agrees other) : draft.opened.Agrees other.opened := by
  obtain ⟨names, depth, header, code⟩ := agrees
  unfold Draft.opened
  rw [perform_note, perform_note]
  refine ⟨names, depth, ?_, code⟩
  simp only [Cpp.Output.preamble, List.foldl_cons, List.foldl_nil, Cpp.Output.headerLine, header]

theorem Agrees.closed (agrees : draft.Agrees other) : draft.closed.Agrees other.closed := by
  obtain ⟨names, depth, header, code⟩ := agrees
  refine ⟨names, depth, header, ?_⟩
  simp only [Draft.closed, Cpp.Output.closing, List.foldl_cons, List.foldl_nil,
    Cpp.Output.writeLine, Cpp.Output.write, code]

/-- Where the output goes, and whether rules are traced: no action changes that. -/
def setting (draft : Draft) : Path × Bool :=
  (draft.output.path, draft.tracing)

theorem path_of_setting (same : draft.setting = other.setting) :
    draft.output.path = other.output.path :=
  congrArg Prod.fst same

theorem tracing_of_setting (same : draft.setting = other.setting) :
    draft.tracing = other.tracing :=
  congrArg Prod.snd same

theorem performAll_setting (draft : Draft) (actions : List Action) :
    (draft.performAll actions).setting = draft.setting := by
  induction actions generalizing draft with
  | nil => rfl
  | cons action rest ih =>
    refine (ih (draft.perform action)).trans ?_
    cases action with
    | note rule => rw [perform_note]; rfl
    | _ => rfl

theorem opened_setting (draft : Draft) : draft.opened.setting = draft.setting := by
  unfold opened
  rw [perform_note]
  rfl

@[simp] theorem closed_setting (draft : Draft) : draft.closed.setting = draft.setting := rfl

@[simp] theorem closed_entered (draft : Draft) : draft.closed.entered = draft.entered := rfl

/-- The rules of all actions go into the trace, if there is one. -/
theorem performAll_entered (draft : Draft) (actions : List Action) :
    (draft.performAll actions).entered =
      (if draft.tracing then (Action.rules actions).reverse else []) ++ draft.entered := by
  induction actions generalizing draft with
  | nil => simp [performAll, Action.rules]
  | cons action rest ih =>
    cases action with
    | note rule =>
      refine (ih (draft.perform (.note rule))).trans ?_
      rw [perform_note]
      cases draft.tracing <;> simp [Action.rules]
    | _ => exact ih _

/-- Nothing is traced where tracing is off. -/
theorem performAll_untraced (off : draft.tracing = false) (actions : List Action) :
    (draft.performAll actions).entered = draft.entered := by
  rw [performAll_entered, off]
  rfl

end Draft

namespace Session
variable {session other : Session}

/-- The sessions are at the same token and have compiled the same. -/
structure Agrees (session other : Session) : Prop where
  window : session.window = other.window
  draft : session.draft.Agrees other.draft

/-- What a program adds to a session. -/
theorem program_draft (session : Session) : ∃ actions,
    session.program.2.draft = session.draft.opened.performAll actions ∨
      session.program.2.draft = (session.draft.opened.performAll actions).closed := by
  obtain ⟨result, further, actions, ran⟩ :=
    session.window.run_uniform session.draft.opened .start
  refine ⟨actions, ?_⟩
  unfold program
  rw [ran _ rfl]
  cases result with
  | ok _ => exact .inr rfl
  | error failure => exact .inl rfl

theorem program_setting (session : Session) :
    session.program.2.draft.setting = session.draft.setting := by
  obtain ⟨actions, same | same⟩ := session.program_draft
  · rw [same, Draft.performAll_setting, Draft.opened_setting]
  · rw [same, Draft.closed_setting, Draft.performAll_setting, Draft.opened_setting]

theorem program_untraced (off : session.draft.tracing = false) :
    session.program.2.draft.trace = "" := by
  have tracing : session.draft.opened.tracing = false :=
    (Draft.tracing_of_setting session.draft.opened_setting).trans off
  have none : session.draft.opened.entered = [] := by
    unfold Draft.opened
    rw [Draft.perform_note, off]
    rfl
  have entered : session.program.2.draft.entered = [] := by
    obtain ⟨actions, same | same⟩ := session.program_draft
    · rw [same, Draft.performAll_untraced tracing, none]
    · rw [same, Draft.closed_entered, Draft.performAll_untraced tracing, none]
  rw [Draft.trace, entered]
  rfl

/-- Sessions that agree give the same result and agree behind it. -/
theorem Agrees.program (agrees : session.Agrees other) :
    session.program.1 = other.program.1 ∧ session.program.2.Agrees other.program.2 := by
  obtain ⟨result, further, actions, uniform⟩ :=
    other.window.run_uniform other.draft.opened .start
  have performed := agrees.draft.opened.performAll actions
  unfold Session.program
  rw [agrees.window, uniform _ agrees.draft.opened.names, uniform _ rfl]
  cases result with
  | ok _ => exact ⟨rfl, rfl, performed.closed⟩
  | error failure => exact ⟨rfl, rfl, performed⟩

/-- Asks for the program so many times. Each time there is a result and a trace. -/
def programs (session : Session) : Nat → List (Except Failure Unit × String) × Session
  | 0 => ([], session)
  | count + 1 =>
    let (result, next) := session.program
    let (answers, last) := next.programs count
    ((result, next.draft.trace) :: answers, last)

theorem Agrees.programs (agrees : session.Agrees other) (count : Nat) :
    (session.programs count).1.map Prod.fst = (other.programs count).1.map Prod.fst ∧
      (session.programs count).2.Agrees (other.programs count).2 := by
  induction count generalizing session other with
  | zero => exact ⟨rfl, agrees⟩
  | succ count ih =>
    obtain ⟨result, next⟩ := agrees.program
    obtain ⟨results, last⟩ := ih next
    refine ⟨?_, last⟩
    simp only [Session.programs, List.map_cons, result, results]

theorem programs_setting (session : Session) (count : Nat) :
    (session.programs count).2.draft.setting = session.draft.setting := by
  induction count generalizing session with
  | zero => rfl
  | succ count ih => exact (ih session.program.2).trans session.program_setting

theorem programs_untraced (off : session.draft.tracing = false) (count : Nat) :
    ∀ answer ∈ (session.programs count).1, answer.2 = "" := by
  induction count generalizing session with
  | zero => exact List.forall_mem_nil _
  | succ count ih =>
    have still : session.program.2.draft.tracing = false :=
      (Draft.tracing_of_setting session.program_setting).trans off
    intro answer member
    rcases List.mem_cons.mp member with rfl | member
    · exact program_untraced off
    · exact ih still answer member

end Session

/-- A script is compiled alike whatever file it is compiled into, and whether or not this is traced:
to the same program, or with the same failure. -/
theorem session_compiles (source : String) (path : Path) (tracing : Bool) :
    (∃ failure, compile source = .error failure ∧
      Session.ofSource source (.empty path) tracing = .error failure) ∨
    ∃ session result last, Session.ofSource source (.empty path) tracing = .ok session ∧
      session.program = (result, last) ∧
      compile source = result.map (fun _ => last.draft.output.text) ∧
      last.draft.output.path = path := by
  unfold compile Session.ofSource
  cases Window.ofSource source with
  | error fault => exact .inl ⟨.lexical fault, rfl, rfl⟩
  | ok window =>
    right
    have agrees : Session.Agrees ⟨window, .start (.empty path) tracing⟩
        ⟨window, .start default false⟩ := ⟨rfl, rfl, rfl, rfl, rfl⟩
    obtain ⟨same, _, draft⟩ := agrees.program
    have setting := Session.program_setting ⟨window, .start (.empty path) tracing⟩
    rcases ran : Session.program ⟨window, .start (.empty path) tracing⟩ with ⟨result, last⟩
    rcases plain : Session.program ⟨window, .start default false⟩ with ⟨result', last'⟩
    rw [ran, plain] at same draft
    rw [ran] at setting
    cases same
    refine ⟨_, result, last, rfl, ran, ?_, Draft.path_of_setting setting⟩
    have text : last.draft.output.text = last'.draft.output.text := by
      rw [Cpp.Output.text, draft.header, draft.code]
      rfl
    dsimp only [bind, Except.bind]
    rw [plain, text]
    cases result <;> rfl

end ScriptToCpp
