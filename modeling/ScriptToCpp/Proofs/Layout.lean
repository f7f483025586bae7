import ScriptToCpp.Proofs.Outcome
import Mathlib

/-! Empty lines count for nothing. A line break is asked for at the end of a statement and behind an
opening brace; a further one behind it, or one before the first statement, is passed over without
any action. So texts that differ in nothing else are compiled alike, and where they are at fault the
same is blamed for the same reason. -/
namespace ScriptToCpp

namespace Token

/-- The tokens without the line breaks that stand right behind another one, where `broken` says
whether one stands before them all. -/
def unbroken (broken : Bool) : List Token → List Token
  | [] => []
  | token :: rest =>
    if token.kind = .newline then
      if broken then unbroken true rest else token :: unbroken true rest
    else token :: unbroken false rest

/-- The kinds and texts of the tokens, with no line break at the start, and one for each run of
them elsewhere. -/
def layoutFree (tokens : List Token) : List (Kind × String) :=
  (unbroken true tokens).map lexeme

end Token

namespace Control
variable {names : List String} {token : Token} {control next : Control}
  {before after : List Action}

/-- The empty lines that may follow are passed over in the state behind a line break. -/
theorem Moves.behind_break (moves : Moves names token control before after next)
    (newline : token.kind = .newline) : ∃ entering, next.mode = .boundary entering := by
  cases moves with
  | skip | lineEnd => exact ⟨_, rfl⟩
  | line moves | enter moves => exact absurd newline moves.notBreak
  | printText kind | declared kind | read kind | equals kind =>
    rw [newline] at kind
    contradiction
  | printValue moves | operand moves =>
    cases moves with
    | sign kind | number kind | name kind =>
      rw [newline] at kind
      contradiction
  | operator moves =>
    cases moves with
    | endPrint | endValue => exact ⟨_, rfl⟩
    | scale kind | add kind | compare kind | endCondition kind =>
      rw [newline] at kind
      contradiction

end Control

namespace Stage
variable {stage : Stage} {token : Token} {tokens : List Token} {actions : List Action}
  {result : Except SyntaxError Unit}

theorem react_empty_line {entering : Bool} (boundary : stage.control.mode = .boundary entering)
    (newline : token.kind = .newline) : stage.react token = ⟨[], .shift [] stage.control⟩ := by
  obtain ⟨names, mode, blocks⟩ := stage
  cases boundary
  exact (Control.Moves.skip newline).react

/-- How reading ends does not depend on the line breaks that follow another one. -/
theorem Outcome.unbroken (outcome : Outcome stage tokens actions result) {broken : Bool}
    (boundary : broken = true → ∃ entering, stage.control.mode = .boundary entering) :
    Outcome stage (Token.unbroken broken tokens) actions result := by
  induction outcome generalizing broken with
  | accepted reaction =>
    have last := (Control.accept_iff.mp reaction).2.1
    rw [Token.unbroken, if_neg (by rw [last]; decide)]
    exact .accepted reaction
  | @refused stage token _ _ _ reaction =>
    rw [Token.unbroken]
    split
    next newline =>
      cases broken with
      | false => exact .refused reaction
      | true =>
        obtain ⟨entering, mode⟩ := boundary rfl
        cases reaction.symm.trans (react_empty_line mode newline)
    next => exact .refused reaction
  | @moved stage token _ _ _ next _ _ reaction _ ih =>
    rw [Token.unbroken]
    split
    next newline =>
      -- The next line break, if any, is one behind this one.
      have later := @ih true fun _ => (Control.Moves.of_react reaction).behind_break newline
      cases broken with
      | false => exact .moved reaction later
      | true =>
        obtain ⟨entering, mode⟩ := boundary rfl
        cases reaction.symm.trans (react_empty_line mode newline)
        exact later
    next => exact .moved reaction (ih nofun)

end Stage

/-- Layout does not matter: texts whose tokens agree in kinds and texts, empty lines apart, are both
compiled, to the same program and with the same names declared; or they are both refused, at tokens
that agree in kind and text and with the same message. -/
theorem compile_layout {first second : String} {tokens others : List Token}
    (read : tokenize first = .ok tokens) (read' : tokenize second = .ok others)
    (same : Token.layoutFree tokens = Token.layoutFree others) :
    (∃ output names, compile first = .ok output ∧ compile second = .ok output ∧
      declaredNames first = .ok names ∧ declaredNames second = .ok names) ∨
    ∃ fault other : SyntaxError, compile first = .error (.grammatical fault) ∧
      compile second = .error (.grammatical other) ∧ fault.detail = other.detail ∧
      fault.token.kind = other.token.kind ∧ fault.token.text = other.token.text := by
  obtain ⟨actions, result, outcome⟩ := exists_outcome read
  obtain ⟨further, result', outcome'⟩ := exists_outcome read'
  have boundary : true = true → ∃ entering, Stage.start.control.mode = .boundary entering :=
    fun _ => ⟨false, rfl⟩
  obtain ⟨_, again, concur⟩ :=
    (outcome.unbroken boundary).transfer (Stage.Agrees.refl _) same
  obtain ⟨rfl, rfl⟩ := again.unique (outcome'.unbroken boundary)
  obtain ⟨compiled, declared⟩ := compile_of_outcome read outcome
  obtain ⟨compiled', declared'⟩ := compile_of_outcome read' outcome'
  cases concur with
  | done => exact .inl ⟨_, _, compiled, compiled', declared, declared'⟩
  | @fault cause token other lexeme =>
    obtain ⟨kind, text⟩ := Token.lexeme_eq.mp lexeme
    refine .inr ⟨_, _, compiled, compiled', ?_, kind, text⟩
    simp only [SyntaxError.detail, kind, text]

theorem fault_behind_empty_lines :
    ∃ tokens others, tokenize "if 1<2\x7b\n\x7d 4" = .ok tokens ∧
      tokenize "\nif 1<2\x7b # less\n\n\x7d 4" = .ok others ∧
      Token.layoutFree tokens = Token.layoutFree others ∧
      ((∃ output names, compile "if 1<2\x7b\n\x7d 4" = .ok output ∧
        compile "\nif 1<2\x7b # less\n\n\x7d 4" = .ok output ∧
        declaredNames "if 1<2\x7b\n\x7d 4" = .ok names ∧
        declaredNames "\nif 1<2\x7b # less\n\n\x7d 4" = .ok names) ∨
      ∃ fault other : SyntaxError, compile "if 1<2\x7b\n\x7d 4" = .error (.grammatical fault) ∧
        compile "\nif 1<2\x7b # less\n\n\x7d 4" = .error (.grammatical other) ∧
        fault.detail = other.detail ∧ fault.token.kind = other.token.kind ∧
        fault.token.text = other.token.text) := by
  have read : tokenize "if 1<2\x7b\n\x7d 4" = .ok
      [⟨.ifWord, "if", ⟨1, 1⟩⟩, ⟨.number, "1", ⟨1, 4⟩⟩, ⟨.lt, "<", ⟨1, 5⟩⟩, ⟨.number, "2", ⟨1, 6⟩⟩,
        ⟨.lBrace, "\x7b", ⟨1, 7⟩⟩, ⟨.newline, "\n", ⟨1, 8⟩⟩, ⟨.rBrace, "\x7d", ⟨2, 1⟩⟩,
        ⟨.number, "4", ⟨2, 3⟩⟩, ⟨.newline, "\n", ⟨2, 4⟩⟩, ⟨.eof, "", ⟨3, 1⟩⟩] := by
    cbv
  have read' : tokenize "\nif 1<2\x7b # less\n\n\x7d 4" = .ok
      [⟨.newline, "\n", ⟨1, 1⟩⟩, ⟨.ifWord, "if", ⟨2, 1⟩⟩, ⟨.number, "1", ⟨2, 4⟩⟩,
        ⟨.lt, "<", ⟨2, 5⟩⟩, ⟨.number, "2", ⟨2, 6⟩⟩, ⟨.lBrace, "\x7b", ⟨2, 7⟩⟩,
        ⟨.newline, "\n", ⟨2, 15⟩⟩, ⟨.newline, "\n", ⟨3, 1⟩⟩, ⟨.rBrace, "\x7d", ⟨4, 1⟩⟩,
        ⟨.number, "4", ⟨4, 3⟩⟩, ⟨.newline, "\n", ⟨4, 4⟩⟩, ⟨.eof, "", ⟨5, 1⟩⟩] := by
    cbv
  exact ⟨_, _, read, read', rfl, compile_layout read read' rfl⟩

end ScriptToCpp
