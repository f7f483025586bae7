import ScriptToCpp.Proofs.Sessions
import ScriptToCpp.Proofs.Soundness
import Mathlib

/-! The names that a session knows. They are those that the tokens moved over introduce, and no
others, however the program ends: a name is enrolled once its token has been left behind, so that a
fault two tokens further on comes before that. Asking for the program again only adds to them. -/
namespace ScriptToCpp

/-- The names that a pass over some tokens gets to know are those that the tokens introduce. -/
theorem mem_known_scan {tokens : List Token} {name : String} :
    name ∈ Mention.known [] (scan false tokens) ↔ Introduces tokens name := by
  -- The pass is generalised to one that starts behind other tokens.
  have behind : ∀ (before : List Token) (names : List String) (awaited : Bool),
      (∀ name, name ∈ names ↔ Introduces before name) → (awaited = true ↔ AwaitsName before) →
      (name ∈ Mention.known names (scan awaited tokens) ↔ Introduces (before ++ tokens) name) := by
    induction tokens with
    | nil =>
      intro before names awaited known _
      rw [List.append_nil]
      exact known name
    | cons token rest ih =>
      intro before names awaited known due
      rw [scan, Mention.known_append, List.append_cons]
      apply ih
      · intro other
        rw [introduces_concat, ← due, ← known, Token.mentions]
        by_cases identifier : token.kind = .identifier
        · cases awaited with
          | true => simp [identifier, Mention.known, or_comm, eq_comm]
          | false => simp [identifier, Mention.known]
        · simp [identifier, Mention.known]
      · exact awaitsName_concat.symm
  apply behind [] [] false
  · simp [Introduces]
  · simp [AwaitsName]

theorem Action.subset_enrolledAll (names : List String) (actions : List Action) :
    names ⊆ enrolledAll names actions := by
  induction actions generalizing names with
  | nil => exact List.Subset.refl _
  | cons action rest ih =>
    refine List.Subset.trans ?_ (ih (action.enrolled names))
    cases action with
    | enroll name => exact List.subset_insert name names
    | _ => exact List.Subset.refl _

/-- What is done at once enrolls no name. -/
def Reaction.Quiet (reaction : Reaction) : Prop :=
  ∀ names, Action.enrolledAll names reaction.before = names

namespace Control
variable (names : List String) (clause : Clause) (blocks : Nat) (token : Token)

theorem require_quiet (kind : Kind) (after : List Action) (next : Control) :
    (Reaction.require kind token after next).Quiet := by
  unfold Reaction.require
  split <;> exact fun _ => rfl

theorem statement_quiet : (statement names blocks token).Quiet := by
  unfold statement
  split <;> exact fun _ => rfl

theorem line_quiet : (line names blocks token).Quiet := by
  unfold line
  split
  case h_4 => exact statement_quiet names _ token
  all_goals exact fun _ => rfl

theorem operand_quiet (signed : Bool) : (operand names clause signed blocks token).Quiet := by
  unfold operand
  split <;> exact fun _ => rfl

theorem finish_quiet : (finish clause blocks token).Quiet := by
  unfold finish
  split
  case h_3 => exact fun _ => rfl
  all_goals exact require_quiet token _ _ _

theorem operator_quiet : (operator clause blocks token).Quiet := by
  have finished := finish_quiet clause blocks token
  unfold operator
  split
  case h_5 =>
    split
    · exact fun _ => rfl
    · exact finished
  case h_6 => exact finished
  all_goals exact fun _ => rfl

/-- Names are enrolled only once the token has been left. -/
theorem react_quiet (control : Control) : (control.react names token).Quiet := by
  obtain ⟨mode, blocks⟩ := control
  cases mode with
  | boundary entering =>
    simp only [react, boundary]
    split
    · exact fun _ => rfl
    · split
      · exact line_quiet names (blocks + 1) token
      · exact line_quiet names blocks token
  | printed =>
    simp only [react, printed]
    split
    · exact fun _ => rfl
    · exact operand_quiet names _ blocks token _
  | lineEnd | declared | read | equals => exact require_quiet token _ _ _
  | operand => exact operand_quiet names _ blocks token _
  | operator => exact operator_quiet _ blocks token

end Control

namespace Window
variable {window behind : Window} {tokens : List Token}

/-- The tokens leave the window, one after the other. -/
inductive Shifts : Window → List Token → Window → Prop where
  | nil (window : Window) : Shifts window [] window
  | cons {window next behind : Window} {tokens : List Token} :
      window.shift = (.ok (), next) → Shifts next tokens behind →
      Shifts window (window.current :: tokens) behind

/-- The tokens that have left the window stood before those that it shows. -/
theorem Shifts.items (shifts : Shifts window tokens behind)
    (more : ∀ token ∈ tokens, token.kind ≠ .eof) :
    window.items = tokens.map .ok ++ behind.items := by
  induction shifts with
  | nil => rfl
  | cons moved _ ih =>
    rw [List.forall_mem_cons] at more
    rw [(shift_items more.1 moved).2, ih more.2]
    rfl

theorem Shifts.settled (shifts : Shifts window tokens behind) (settled : window.Settled)
    (more : ∀ token ∈ tokens, token.kind ≠ .eof) : behind.Settled := by
  induction shifts with
  | nil => exact settled
  | cons moved _ ih =>
    rw [List.forall_mem_cons] at more
    exact ih (shift_items more.1 moved).1 more.2

/-- How a run ends where the window has got to: it accepts the end token, refuses the token at hand,
or cannot read what comes next. -/
inductive Stops (behind : Window) : Except Failure Unit → Window → Prop where
  | accepted : behind.current.kind = .eof → Stops behind (.ok ()) behind
  | refused (cause : SyntaxError.Cause) :
      Stops behind (.error (.grammatical ⟨cause, behind.current⟩)) behind
  | faulted {fault : LexError} {last : Window} :
      behind.current.kind ≠ .eof → behind.shift = (.error fault, last) →
      Stops behind (.error (.lexical fault)) last

/-- A run moves over tokens that can be read, and knows the names behind them when it stops. -/
theorem run_shifts (window : Window) (draft : Draft) (control : Control) :
    ∃ tokens behind actions stage, window.Shifts tokens behind ∧
      Stage.Reads ⟨draft.names, control⟩ tokens actions stage ∧
      (window.run draft control).2.2.names = stage.names ∧
      behind.Stops (window.run draft control).1 (window.run draft control).2.1 := by
  -- Where the window stops at once, what was done before has enrolled nothing.
  have here : ∀ (window : Window) (draft : Draft) (control : Control),
      (draft.performAll (control.react draft.names window.current).before).names =
        draft.names := by
    intro window draft control
    rw [Draft.performAll_names]
    exact Control.react_quiet draft.names window.current control draft.names
  induction window, draft, control using Window.run.induct with
  | case1 window draft control reaction verdict =>
    have reacts : control.react draft.names window.current = ⟨reaction.before, .accept⟩ :=
      congrArg (Reaction.mk _) verdict
    rw [run_accept reacts]
    exact ⟨[], window, [], _, .nil _, .nil _, here window draft control,
      .accepted (Control.accept_iff.mp reacts).2.1⟩
  | case2 window draft control reaction cause verdict =>
    have reacts : control.react draft.names window.current = ⟨reaction.before, .refuse cause⟩ :=
      congrArg (Reaction.mk _) verdict
    rw [run_refuse reacts]
    exact ⟨[], window, [], _, .nil _, .nil _, here window draft control, .refused cause⟩
  | case3 window draft control reaction after next verdict fault further moved =>
    have reacts : control.react draft.names window.current =
        ⟨reaction.before, .shift after next⟩ :=
      congrArg (Reaction.mk _) verdict
    rw [run_fault reacts moved]
    exact ⟨[], window, [], _, .nil _, .nil _, here window draft control,
      .faulted (fun last => control.react_eof _ last after next verdict) moved⟩
  | case4 window draft control reaction _ after next verdict further moved _ ih =>
    have reacts : control.react draft.names window.current =
        ⟨reaction.before, .shift after next⟩ :=
      congrArg (Reaction.mk _) verdict
    obtain ⟨tokens, behind, actions, stage, shifts, reads, names, stops⟩ := ih
    rw [← Draft.performAll_append] at reads names stops
    rw [Draft.performAll_names] at reads
    rw [run_shift reacts moved]
    exact ⟨_, behind, _, stage, .cons moved shifts, .cons reacts reads, names, stops⟩

end Window

theorem Stage.Reads.notEnd {stage last : Stage} {tokens : List Token} {actions : List Action}
    (read : Stage.Reads stage tokens actions last) : ∀ token ∈ tokens, token.kind ≠ .eof := by
  induction read with
  | nil => exact List.forall_mem_nil _
  | @cons stage _ token _ after _ next _ reaction _ ih =>
    rw [List.forall_mem_cons]
    refine ⟨fun last => ?_, ih⟩
    exact stage.control.react_eof stage.names last after next (congrArg Reaction.verdict reaction)

@[simp] theorem Draft.opened_names (draft : Draft) : draft.opened.names = draft.names := by
  unfold opened
  rw [perform_note]

/-- A program adds names to those that are known. -/
theorem Session.names_subset_program (session : Session) :
    session.draft.names ⊆ session.program.2.draft.names := by
  have added : ∀ actions, session.draft.names ⊆
      (session.draft.opened.performAll actions).names := by
    intro actions
    rw [Draft.performAll_names, Draft.opened_names]
    exact Action.subset_enrolledAll _ actions
  obtain ⟨actions, same | same⟩ := session.program_draft
  · rw [same]
    exact added actions
  · rw [same]
    exact added actions

theorem Session.names_subset_programs (session : Session) (count : Nat) :
    (session.programs count).2.draft.names ⊆ (session.programs (count + 1)).2.draft.names := by
  induction count generalizing session with
  | zero => exact session.names_subset_program
  | succ count ih => exact ih session.program.2

/-- The names that are known after the first program are just those that stand behind a `declare` or
an `input` among the tokens that left the window. Where the program is complete these are all tokens
but the last, which is no name; where a token is refused, those before it; and where the next token
cannot be read, those before the two that the window shows. Every further program only adds names. -/
theorem program_names_introduced {source : String} {output : Cpp.Output} {tracing : Bool}
    {session : Session} (opened : Session.ofSource source output tracing = .ok session) :
    (∃ tokens behind, session.window.Shifts tokens behind ∧
      (∀ name, name ∈ session.program.2.draft.names ↔ Introduces tokens name) ∧
      match session.program.1 with
      | .ok () => tokenize source = .ok (tokens ++ [behind.current]) ∧
          ∀ name, name ∈ session.program.2.draft.names ↔
            Introduces (tokens ++ [behind.current]) name
      | .error (.grammatical fault) => fault.token = behind.current ∧
          ∃ rest, (Cursor.start source).drain.1 = tokens.map .ok ++ .ok fault.token :: rest
      | .error (.lexical fault) => (Cursor.start source).drain.1 =
          tokens.map .ok ++ [.ok behind.current, .ok behind.ahead, .error fault]
      | .error _ => False) ∧
    ∀ count, (session.programs count).2.draft.names ⊆
      (session.programs (count + 1)).2.draft.names := by
  refine ⟨?_, session.names_subset_programs⟩
  unfold Session.ofSource at opened
  cases read : Window.ofSource source with
  | error fault =>
    rw [read] at opened
    contradiction
  | ok window =>
    rw [read] at opened
    cases opened
    obtain ⟨settled, items⟩ := Window.ofSource_ok read
    obtain ⟨tokens, behind, actions, stage, shifts, reads, names, stops⟩ :=
      window.run_shifts (Draft.start output tracing).opened .start
    rw [shifts.items reads.notEnd] at items
    have known : ∀ name, name ∈ stage.names ↔ Introduces tokens name := by
      rw [reads.known, Draft.opened_names]
      exact fun name => mem_known_scan
    refine ⟨tokens, behind, shifts, ?_⟩
    unfold Session.program
    rcases ran : window.run (Draft.start output tracing).opened .start with ⟨result, last, draft⟩
    rw [ran] at names stops
    dsimp only at names stops
    cases stops with
    | accepted ended =>
      have kept : ∀ name, name ∈ draft.closed.names ↔ Introduces tokens name := by
        intro name
        rw [← known, ← names]
        rfl
      refine ⟨kept, tokenize_ok_iff.mpr ?_, fun name => ?_⟩
      · rw [← items, Window.items, if_pos ended, List.map_append]
        rfl
      · rw [kept, introduces_concat, ended]
        simp
    | refused cause =>
      obtain ⟨rest, shown, _⟩ := behind.items_current
      rw [names]
      exact ⟨known, rfl, rest, by rw [← items, shown]⟩
    | faulted more moved =>
      rw [names]
      refine ⟨known, ?_⟩
      rw [← items, Window.shift_fault (shifts.settled settled reads.notEnd) more moved]

/-- The second name has been read, but the fault behind it shows before the name is enrolled. -/
theorem name_before_fault :
    ∃ session, Session.ofSource "input a\ninput b @" default false = .ok session ∧
      session.program.1 = .error (.lexical ⟨.unknown '@', ⟨2, 9⟩⟩) ∧
      session.program.2.draft.names = ["a"] ∧
      ∃ tokens behind, session.window.Shifts tokens behind ∧
        (∀ name, name ∈ session.program.2.draft.names ↔ Introduces tokens name) ∧
        (Cursor.start "input a\ninput b @").drain.1 = tokens.map .ok ++
          [.ok behind.current, .ok behind.ahead, .error ⟨.unknown '@', ⟨2, 9⟩⟩] := by
  obtain ⟨session, opened, result, names⟩ : ∃ session,
      Session.ofSource "input a\ninput b @" default false = .ok session ∧
      session.program.1 = .error (.lexical ⟨.unknown '@', ⟨2, 9⟩⟩) ∧
      session.program.2.draft.names = ["a"] :=
    ⟨_, by cbv, by cbv, by cbv⟩
  obtain ⟨⟨tokens, behind, shifts, known, ended⟩, _⟩ := program_names_introduced opened
  rw [result] at ended
  exact ⟨session, opened, result, names, tokens, behind, shifts, known, ended⟩

end ScriptToCpp
