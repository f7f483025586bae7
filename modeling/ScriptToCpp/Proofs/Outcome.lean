import ScriptToCpp.Proofs.Halting
import Mathlib.Data.List.Basic

/-! How compiling ends where all tokens of a text can be read, and what that depends on. Of a token
it is the kind and the text, but not the place. Of the names that are known it is which they are,
but not in which order they came to be known. -/
namespace ScriptToCpp

namespace Token

/-- A token without its place. -/
def lexeme (token : Token) : Kind × String :=
  (token.kind, token.text)

theorem lexeme_eq {token other : Token} :
    token.lexeme = other.lexeme ↔ token.kind = other.kind ∧ token.text = other.text := by
  simp [lexeme]

end Token

namespace Control

theorem react_lexeme {token other : Token} (same : token.lexeme = other.lexeme)
    (names : List String) (control : Control) :
    control.react names token = control.react names other := by
  obtain ⟨kind, text, here⟩ := token
  obtain ⟨kind', text', there⟩ := other
  cases same
  obtain ⟨mode, blocks⟩ := control
  cases mode <;> rfl

theorem react_names {names others : List String} (same : ∀ name, name ∈ names ↔ name ∈ others)
    (control : Control) (token : Token) :
    control.react names token = control.react others token := by
  obtain ⟨mode, blocks⟩ := control
  cases mode with
  | boundary entering => simp only [react, boundary, line, statement, same]
  | printed => simp only [react, printed, operand, primary, same]
  | declared => simp only [react, same]
  | operand clause signed => simp only [react, operand, primary, same]
  | lineEnd | read | equals | operator => rfl

end Control

theorem Action.mem_enrolledAll {names others : List String}
    (same : ∀ name, name ∈ names ↔ name ∈ others) (actions : List Action) (name : String) :
    name ∈ enrolledAll names actions ↔ name ∈ enrolledAll others actions := by
  induction actions generalizing names others with
  | nil => exact same name
  | cons action rest ih =>
    refine ih fun other => ?_
    cases action with
    | enroll fresh => simp only [enrolled, List.mem_insert_iff, same]
    | _ => exact same other

namespace Stage
variable {stage last other : Stage} {token : Token} {tokens others front rest : List Token}
  {actions further before after : List Action} {next : Control}
  {result : Except SyntaxError Unit}

/-- Stages that know the same names and expect the same. -/
structure Agrees (stage other : Stage) : Prop where
  control : stage.control = other.control
  names : ∀ name, name ∈ stage.names ↔ name ∈ other.names

theorem Agrees.refl (stage : Stage) : stage.Agrees stage :=
  ⟨rfl, fun _ => Iff.rfl⟩

theorem Agrees.react {token' : Token} (agrees : stage.Agrees other)
    (same : token.lexeme = token'.lexeme) : stage.react token = other.react token' := by
  unfold Stage.react
  rw [agrees.control, Control.react_names agrees.names, Control.react_lexeme same]

theorem Agrees.moved (agrees : stage.Agrees other) (actions : List Action) (next : Control) :
    Agrees ⟨Action.enrolledAll stage.names actions, next⟩
      ⟨Action.enrolledAll other.names actions, next⟩ :=
  ⟨rfl, Action.mem_enrolledAll agrees.names actions⟩

theorem Reads.names (read : Reads stage tokens actions last) :
    last.names = Action.enrolledAll stage.names actions := by
  induction read with
  | nil => rfl
  | cons _ _ ih =>
    rw [ih]
    exact List.foldl_append.symm

/-- The tokens are read until one is refused, or the last one is accepted. -/
inductive Outcome : Stage → List Token → List Action → Except SyntaxError Unit → Prop where
  | accepted {stage : Stage} {token : Token} {before : List Action} :
      stage.react token = ⟨before, .accept⟩ → Outcome stage [token] before (.ok ())
  | refused {stage : Stage} {token : Token} {before : List Action} {cause : SyntaxError.Cause}
      {rest : List Token} :
      stage.react token = ⟨before, .refuse cause⟩ →
      Outcome stage (token :: rest) before (.error ⟨cause, token⟩)
  | moved {stage : Stage} {token : Token} {before after actions : List Action} {next : Control}
      {rest : List Token} {result : Except SyntaxError Unit} :
      stage.react token = ⟨before, .shift after next⟩ →
      Outcome ⟨Action.enrolledAll stage.names (before ++ after), next⟩ rest actions result →
      Outcome stage (token :: rest) (before ++ after ++ actions) result

/-- Results that blame the same lexeme for the same reason, if they blame any. -/
inductive Concur : Except SyntaxError Unit → Except SyntaxError Unit → Prop where
  | done : Concur (.ok ()) (.ok ())
  | fault {cause : SyntaxError.Cause} {token other : Token} :
      token.lexeme = other.lexeme → Concur (.error ⟨cause, token⟩) (.error ⟨cause, other⟩)

namespace Outcome

/-- Where a token is moved over, how reading ends is how it ends behind the token. -/
theorem behind_token (outcome : Outcome stage (token :: rest) further result)
    (reaction : stage.react token = ⟨before, .shift after next⟩) :
    ∃ more, Outcome ⟨Action.enrolledAll stage.names (before ++ after), next⟩ rest more result ∧
      further = before ++ after ++ more := by
  cases outcome with
  | accepted reaction' => cases reaction.symm.trans reaction'
  | refused reaction' => cases reaction.symm.trans reaction'
  | moved reaction' later =>
    cases reaction.symm.trans reaction'
    exact ⟨_, later, rfl⟩

theorem unique (outcome : Outcome stage tokens actions result)
    {result' : Except SyntaxError Unit} (again : Outcome stage tokens further result') :
    actions = further ∧ result = result' := by
  induction outcome generalizing further with
  | accepted reaction =>
    cases again with
    | accepted reaction' =>
      cases reaction.symm.trans reaction'
      exact ⟨rfl, rfl⟩
    | refused reaction' => cases reaction.symm.trans reaction'
    | moved reaction' => cases reaction.symm.trans reaction'
  | refused reaction =>
    cases again with
    | accepted reaction' => cases reaction.symm.trans reaction'
    | refused reaction' =>
      cases reaction.symm.trans reaction'
      exact ⟨rfl, rfl⟩
    | moved reaction' => cases reaction.symm.trans reaction'
  | moved reaction _ ih =>
    obtain ⟨more, later, rfl⟩ := again.behind_token reaction
    obtain ⟨rfl, rfl⟩ := ih later
    exact ⟨rfl, rfl⟩

/-- Neither places nor the order of the names known decide how reading ends. -/
theorem transfer (outcome : Outcome stage tokens actions result) (agrees : stage.Agrees other)
    (same : tokens.map Token.lexeme = others.map Token.lexeme) :
    ∃ result', Outcome other others actions result' ∧ Concur result result' := by
  induction outcome generalizing other others with
  | accepted reaction =>
    obtain ⟨token', rfl, lexeme⟩ := List.map_eq_singleton_iff.mp same.symm
    exact ⟨_, .accepted ((agrees.react lexeme.symm).symm.trans reaction), .done⟩
  | refused reaction =>
    obtain ⟨token', rest', rfl, lexeme, _⟩ := List.map_eq_cons_iff.mp same.symm
    exact ⟨_, .refused ((agrees.react lexeme.symm).symm.trans reaction), .fault lexeme.symm⟩
  | moved reaction _ ih =>
    obtain ⟨token', rest', rfl, lexeme, more⟩ := List.map_eq_cons_iff.mp same.symm
    obtain ⟨result', later, concur⟩ := ih (agrees.moved _ _) more.symm
    exact ⟨result', .moved ((agrees.react lexeme.symm).symm.trans reaction) later, concur⟩

end Outcome

/-- Reading goes on behind tokens that are moved over. -/
theorem Reads.outcome (read : Reads stage front actions last)
    (outcome : Outcome last rest further result) :
    Outcome stage (front ++ rest) (actions ++ further) result := by
  induction read with
  | nil => exact outcome
  | cons reaction _ ih =>
    rw [List.cons_append, List.append_assoc]
    exact .moved reaction (ih outcome)

/-- Behind tokens that are moved over, how the rest ends is how all of it ends. -/
theorem Outcome.behind (read : Reads stage front actions last)
    (outcome : Outcome stage (front ++ rest) further result) :
    ∃ more, Outcome last rest more result ∧ further = actions ++ more := by
  induction read generalizing further with
  | nil => exact ⟨further, outcome, rfl⟩
  | cons reaction _ ih =>
    obtain ⟨_, later, rfl⟩ := outcome.behind_token reaction
    obtain ⟨more, final, rfl⟩ := ih later
    exact ⟨more, final, (List.append_assoc _ _ more).symm⟩

theorem Halts.outcome {result : Except Failure Unit}
    (halts : stage.Halts (tokens.map .ok) actions result) :
    ∃ result', Outcome stage tokens actions result' ∧
      result = result'.mapError .grammatical := by
  generalize same : tokens.map (Except.ok : Token → Except LexError Token) = items at halts
  cases halts with
  | @mk front rest actions further last _ read ends =>
    obtain ⟨front', back, rfl, front_eq, rfl⟩ := List.map_eq_append_iff.mp same
    cases (List.map_inj_right fun _ _ => Except.ok.inj).mp front_eq
    generalize items : back.map (Except.ok : Token → Except LexError Token) = rest at ends
    cases ends with
    | accepted reaction =>
      obtain ⟨token, rfl, found⟩ := List.map_eq_singleton_iff.mp items
      cases found
      exact ⟨.ok (), read.outcome (.accepted reaction), rfl⟩
    | refused reaction _ =>
      obtain ⟨token, back, rfl, found, _⟩ := List.map_eq_cons_iff.mp items
      cases found
      exact ⟨.error _, read.outcome (.refused reaction), rfl⟩
    | @faulted _ _ _ _ _ fault =>
      have impossible :
          Except.error fault ∈ back.map (Except.ok : Token → Except LexError Token) := by
        rw [items]
        simp
      simp at impossible

end Stage

/-- What the compiler holds once the given actions have been taken for a whole text. -/
def Draft.after (actions : List Action) : Draft :=
  ((Draft.start default false).opened.performAll actions).closed

theorem Draft.after_names (actions : List Action) :
    (Draft.after actions).names = Action.enrolledAll [] actions := by
  change ((Draft.start default false).opened.performAll actions).names = _
  rw [Draft.performAll_names]
  rfl

/-- The names that are declared once a text has been compiled. -/
def declaredNames (source : String) : Except Failure (List String) :=
  (finalDraft source).map Draft.names

/-- A text whose tokens can be read is compiled as its tokens say. -/
theorem finalDraft_of_outcome {source : String} {tokens : List Token} {actions : List Action}
    {result : Except SyntaxError Unit} (read : tokenize source = .ok tokens)
    (outcome : Stage.start.Outcome tokens actions result) :
    finalDraft source = (result.mapError .grammatical).map fun _ => Draft.after actions := by
  rw [tokenize_ok_iff] at read
  rcases finalDraft_halts source with
    ⟨found, fault, _, faulty, _⟩ | ⟨further, ended, halts, final⟩
  · exact absurd (read.symm.trans faulty) Items.map_ne_fault
  · rw [read] at halts
    obtain ⟨result', again, rfl⟩ := halts.outcome
    obtain ⟨rfl, rfl⟩ := outcome.unique again
    exact final

theorem compile_of_outcome {source : String} {tokens : List Token} {actions : List Action}
    {result : Except SyntaxError Unit} (read : tokenize source = .ok tokens)
    (outcome : Stage.start.Outcome tokens actions result) :
    compile source = (result.mapError .grammatical).map (fun _ => written actions) ∧
      declaredNames source =
        (result.mapError .grammatical).map fun _ => Action.enrolledAll [] actions := by
  rw [compile_eq, declaredNames, finalDraft_of_outcome read outcome, ← Draft.after_names]
  cases result <;> exact ⟨rfl, rfl⟩

theorem exists_outcome {source : String} {tokens : List Token}
    (read : tokenize source = .ok tokens) :
    ∃ actions result, Stage.start.Outcome tokens actions result := by
  rw [tokenize_ok_iff] at read
  rcases finalDraft_halts source with
    ⟨found, fault, _, faulty, _⟩ | ⟨actions, ended, halts, _⟩
  · exact absurd (read.symm.trans faulty) Items.map_ne_fault
  · rw [read] at halts
    obtain ⟨result, outcome, _⟩ := halts.outcome
    exact ⟨actions, result, outcome⟩

end ScriptToCpp
