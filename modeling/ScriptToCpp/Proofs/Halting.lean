import ScriptToCpp.Session
import ScriptToCpp.Proofs.Reading
import ScriptToCpp.Proofs.TokenList

/-! How compiling ends, said about the list of items that reading the text gives. The window is gone
here but for one thing: a token is looked at only where the item behind it is no fault, and it is
moved over only where the one behind that is none either. -/
namespace ScriptToCpp

namespace Stage

/-- What happens at the first token that is not moved over. -/
inductive Ends (stage : Stage) :
    List (Except LexError Token) → List Action → Except Failure Unit → Prop where
  | accepted {token : Token} {before : List Action} :
      stage.react token = ⟨before, .accept⟩ → Ends stage [.ok token] before (.ok ())
  | refused {token : Token} {before : List Action} {cause : SyntaxError.Cause}
      {rest : List (Except LexError Token)} :
      stage.react token = ⟨before, .refuse cause⟩ → (∀ fault, rest ≠ [.error fault]) →
      Ends stage (.ok token :: rest) before (.error (.grammatical ⟨cause, token⟩))
  | faulted {token ahead : Token} {before after : List Action} {next : Control}
      {fault : LexError} :
      stage.react token = ⟨before, .shift after next⟩ →
      Ends stage [.ok token, .ok ahead, .error fault] before (.error (.lexical fault))

/-- Some tokens are moved over, and reading ends behind them. -/
inductive Halts (stage : Stage) :
    List (Except LexError Token) → List Action → Except Failure Unit → Prop where
  | mk {front : List Token} {rest : List (Except LexError Token)} {actions further : List Action}
      {last : Stage} {result : Except Failure Unit} :
      Reads stage front actions last → Ends last rest further result →
      Halts stage (front.map .ok ++ rest) (actions ++ further) result

variable {stage : Stage} {items : List (Except LexError Token)} {actions : List Action}
  {result : Except Failure Unit}

theorem Ends.halts (ends : stage.Ends items actions result) : stage.Halts items actions result :=
  .mk (.nil stage) ends

theorem Halts.step {token : Token} {before after : List Action} {next : Control}
    (reaction : stage.react token = ⟨before, .shift after next⟩)
    (halts : Halts ⟨Action.enrolledAll stage.names (before ++ after), next⟩ items actions result) :
    stage.Halts (.ok token :: items) (before ++ after ++ actions) result := by
  cases halts with
  | mk read ends =>
    rw [← List.append_assoc]
    exact .mk (.cons reaction read) ends

end Stage

namespace Window
variable {window further : Window} {draft : Draft} {control next : Control}
  {before after : List Action} {fault : LexError}

theorem run_accept
    (reaction : control.react draft.names window.current = ⟨before, .accept⟩) :
    window.run draft control = (.ok (), window, draft.performAll before) := by
  rw [run]
  split <;> rename_i verdict <;> rw [reaction] at verdict <;> cases verdict
  rw [reaction]

theorem run_refuse {cause : SyntaxError.Cause}
    (reaction : control.react draft.names window.current = ⟨before, .refuse cause⟩) :
    window.run draft control =
      (.error (.grammatical ⟨cause, window.current⟩), window, draft.performAll before) := by
  rw [run]
  split <;> rename_i verdict <;> rw [reaction] at verdict <;> cases verdict
  rw [reaction]

theorem run_fault
    (reaction : control.react draft.names window.current = ⟨before, .shift after next⟩)
    (moved : window.shift = (.error fault, further)) :
    window.run draft control = (.error (.lexical fault), further, draft.performAll before) := by
  rw [run]
  split <;> simp_all
  split <;> simp_all

theorem run_shift
    (reaction : control.react draft.names window.current = ⟨before, .shift after next⟩)
    (moved : window.shift = (.ok (), further)) :
    window.run draft control = further.run (draft.performAll (before ++ after)) next := by
  rw [run, Draft.performAll_append]
  split <;> simp_all
  split <;> simp_all

/-- The window is driven to where reading its items ends, and the draft has what is done on the
way. -/
theorem run_halts (window : Window) (draft : Draft) (control : Control)
    (settled : window.Settled) :
    ∃ actions, Stage.Halts ⟨draft.names, control⟩ window.items actions
        (window.run draft control).1 ∧
      (window.run draft control).2.2 = draft.performAll actions := by
  induction window, draft, control using Window.run.induct with
  | case1 window draft control reaction verdict =>
    have reacts : control.react draft.names window.current = ⟨reaction.before, .accept⟩ :=
      congrArg (Reaction.mk _) verdict
    have last : window.current.kind = .eof := (Control.accept_iff.mp reacts).2.1
    rw [run_accept reacts]
    refine ⟨_, ?_, rfl⟩
    -- What the window holds behind the end token is no item.
    rw [items, if_pos last]
    exact Stage.Ends.halts (.accepted reacts)
  | case2 window draft control reaction cause verdict =>
    have reacts : control.react draft.names window.current = ⟨reaction.before, .refuse cause⟩ :=
      congrArg (Reaction.mk _) verdict
    obtain ⟨rest, same, clear⟩ := window.items_current
    rw [run_refuse reacts, same]
    exact ⟨_, Stage.Ends.halts (.refused reacts clear), rfl⟩
  | case3 window draft control reaction after next verdict fault further moved =>
    have reacts : control.react draft.names window.current =
        ⟨reaction.before, .shift after next⟩ :=
      congrArg (Reaction.mk _) verdict
    have more : window.current.kind ≠ .eof :=
      fun last => control.react_eof _ last after next verdict
    rw [run_fault reacts moved, shift_fault settled more moved]
    exact ⟨_, Stage.Ends.halts (.faulted reacts), rfl⟩
  | case4 window draft control reaction _ after next verdict further moved _ ih =>
    have reacts : control.react draft.names window.current =
        ⟨reaction.before, .shift after next⟩ :=
      congrArg (Reaction.mk _) verdict
    have more : window.current.kind ≠ .eof :=
      fun last => control.react_eof _ last after next verdict
    obtain ⟨settled', same⟩ := shift_items more moved
    obtain ⟨actions, halts, performed⟩ := ih settled'
    rw [← Draft.performAll_append] at halts performed
    rw [Draft.performAll_names] at halts
    refine ⟨reaction.before ++ after ++ actions, ?_, ?_⟩
    · rw [run_shift reacts moved, same]
      exact halts.step reacts
    · rw [run_shift reacts moved, performed]
      exact (draft.performAll_append _ actions).symm

end Window

/-- The text of the program that is written by the given actions. -/
def written (actions : List Action) : String :=
  ((Draft.start default false).opened.performAll actions).closed.output.text

/-- What the compiler holds once a text has been compiled. -/
def finalDraft (source : String) : Except Failure Draft := do
  let session ← Session.ofSource source default false
  let (result, session) := session.program
  result
  return session.draft

theorem compile_eq (source : String) :
    compile source = (finalDraft source).map fun draft => draft.output.text := by
  unfold compile finalDraft
  cases Session.ofSource source default false with
  | error failure => rfl
  | ok session =>
    rcases ran : session.program with ⟨result, final⟩
    cases result <;> simp [bind, Except.bind, pure, Except.pure, Except.map, ran]

/-- Compiling ends before the first token is looked at, or where reading the text ends. -/
theorem finalDraft_halts (source : String) :
    (∃ (tokens : List Token) (fault : LexError), tokens.length ≤ 1 ∧
      (Cursor.start source).drain.1 = tokens.map .ok ++ [.error fault] ∧
      finalDraft source = .error (.lexical fault)) ∨
    ∃ actions result, Stage.start.Halts (Cursor.start source).drain.1 actions result ∧
      finalDraft source =
        result.map fun _ => ((Draft.start default false).opened.performAll actions).closed := by
  cases opened : Window.ofSource source with
  | error fault =>
    obtain ⟨tokens, short, same⟩ := Window.ofSource_error opened
    refine .inl ⟨tokens, fault, short, same, ?_⟩
    simp [finalDraft, Session.ofSource, opened, bind, Except.bind]
  | ok window =>
    obtain ⟨settled, same⟩ := Window.ofSource_ok opened
    obtain ⟨actions, halts, performed⟩ :=
      window.run_halts (Draft.start default false).opened .start settled
    rw [same] at halts
    refine .inr ⟨actions, _, halts, ?_⟩
    rcases ran : window.run (Draft.start default false).opened .start with ⟨result, behind, draft⟩
    rw [ran] at performed
    cases result with
    | error failure =>
      simp [finalDraft, Session.ofSource, Session.program, opened, ran, bind, Except.bind,
        Except.map]
    | ok _ =>
      simp [finalDraft, Session.ofSource, Session.program, opened, ran, bind, Except.bind,
        Except.map, pure, Except.pure, ← performed]

theorem compile_halts (source : String) :
    (∃ (tokens : List Token) (fault : LexError), tokens.length ≤ 1 ∧
      (Cursor.start source).drain.1 = tokens.map .ok ++ [.error fault] ∧
      compile source = .error (.lexical fault)) ∨
    ∃ actions result, Stage.start.Halts (Cursor.start source).drain.1 actions result ∧
      compile source = result.map fun _ => written actions := by
  rw [compile_eq]
  rcases finalDraft_halts source with
    ⟨tokens, fault, short, same, failed⟩ | ⟨actions, result, halts, final⟩
  · exact .inl ⟨tokens, fault, short, same, by rw [failed]; rfl⟩
  · refine .inr ⟨actions, result, halts, ?_⟩
    rw [final]
    cases result <;> rfl

theorem compile_ok {source output : String} (compiled : compile source = .ok output) :
    ∃ front last actions final, tokenize source = .ok (front ++ [last]) ∧
      Stage.start.Reads front actions final ∧ final.react last = ⟨[], .accept⟩ ∧
      output = written actions := by
  rcases compile_halts source with ⟨_, _, _, _, failed⟩ | ⟨actions, result, halts, same⟩
  · rw [failed] at compiled
    contradiction
  · generalize read : (Cursor.start source).drain.1 = items at halts
    rw [same] at compiled
    cases halts with
    | @mk front _ actions _ final _ reads ends =>
      cases ends with
      | @accepted token before reaction =>
        cases compiled
        obtain ⟨_, _, rfl⟩ := Control.accept_iff.mp reaction
        refine ⟨front, token, actions, final, tokenize_ok_iff.mpr ?_, reads, reaction, ?_⟩
        · simpa using read
        · rw [List.append_nil]
      | refused | faulted => contradiction

end ScriptToCpp
