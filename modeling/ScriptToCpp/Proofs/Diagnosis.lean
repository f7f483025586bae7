import ScriptToCpp.Proofs.Halting
import ScriptToCpp.Proofs.Recognition
import Mathlib

/-! What compiling a text comes to. A text is compiled where its tokens are a script. Where they are
not, the fault that is reported is the first one: some script starts with the tokens before the one
that is blamed, and none goes on with that one. The first half holds because a script can be
finished from wherever the compiler stands. -/
namespace ScriptToCpp

namespace Stage
variable {stage last : Stage} {names : List String} {control next : Control} {token : Token}
  {front rest : List Token} {before after actions : List Action}

/-- Some tokens finish a script from here. -/
def Completes (stage : Stage) : Prop :=
  ∃ rest, stage.Accepts rest

theorem Completes.step (moves : control.Moves names token before after next)
    (completes : Completes ⟨Action.enrolledAll names (before ++ after), next⟩) :
    Completes ⟨names, control⟩ := by
  obtain ⟨rest, accepted⟩ := completes
  exact ⟨[token] ++ rest, (Reads.single moves).accepts accepted⟩

/-- A token of the given kind, wherever it stands. -/
def sample (kind : Kind) : Token :=
  ⟨kind, kind.spelling?.getD "0", .start⟩

/-- All blocks that are open are closed, one after the other. -/
theorem completes_boundary (names : List String) (blocks : Nat) :
    Completes ⟨names, ⟨.boundary false, blocks⟩⟩ := by
  induction blocks with
  | zero =>
    exact ⟨[sample .eof], [], sample .eof, [], _, [], rfl, .nil _,
      Control.accept_iff.mpr ⟨rfl, rfl, rfl⟩⟩
  | succ blocks ih =>
    have close : Control.LineMoves names (sample .rBrace) (blocks + 1) _ _ _ := .close rfl
    have newline : Control.Moves names (sample .newline) ⟨.lineEnd false, blocks⟩ _ _ _ :=
      .lineEnd rfl
    exact .step (.line close) (.step newline ih)

/-- Where a block starts it may end at once. -/
theorem completes_lineEnd (names : List String) (entering : Bool) (blocks : Nat) :
    Completes ⟨names, ⟨.lineEnd entering, blocks⟩⟩ := by
  have newline : ∀ entering,
      Control.Moves names (sample .newline) ⟨.lineEnd entering, blocks⟩ _ _ _ :=
    fun _ => .lineEnd rfl
  refine .step (newline entering) ?_
  cases entering with
  | false => exact completes_boundary names blocks
  | true =>
    have close : Control.LineMoves names (sample .rBrace) (blocks + 1) _ _ _ := .close rfl
    exact .step (.enter close) (.step (newline false) (completes_boundary names blocks))

theorem completes_operator (names : List String) (clause : Clause) (blocks : Nat) :
    Completes ⟨names, ⟨.operator clause, blocks⟩⟩ := by
  have endLine : (sample .newline).kind = .newline := rfl
  have endCondition : Control.OperatorMoves (sample .lBrace) blocks (.condition true) _ _ _ :=
    .endCondition rfl
  have compared : Completes ⟨names, ⟨.operator (.condition true), blocks⟩⟩ :=
    .step (.operator endCondition) (completes_lineEnd names true blocks)
  cases clause with
  | print => exact .step (.operator (.endPrint endLine)) (completes_boundary names blocks)
  | value => exact .step (.operator (.endValue endLine)) (completes_boundary names blocks)
  | condition done =>
    cases done with
    | true => exact compared
    | false =>
      have compare : Control.OperatorMoves (sample .lt) blocks (.condition false) _ _ _ :=
        .compare rfl
      have right :
          Control.OperandMoves names (sample .number) (.condition true) blocks false _ _ _ :=
        .number rfl
      exact .step (.operator compare) (.step (.operand right) compared)

theorem completes_operand (names : List String) (clause : Clause) (signed : Bool) (blocks : Nat) :
    Completes ⟨names, ⟨.operand clause signed, blocks⟩⟩ := by
  have number : Control.OperandMoves names (sample .number) clause blocks signed _ _ _ :=
    .number rfl
  exact .step (.operand number) (completes_operator names clause blocks)

theorem completes_equals (names : List String) (name : String) (first : Bool) (blocks : Nat) :
    Completes ⟨names, ⟨.equals name first, blocks⟩⟩ := by
  have equals : Control.Moves names (sample .eq) ⟨.equals name first, blocks⟩ _ _ _ := .equals rfl
  exact .step equals (completes_operand _ .value false blocks)

/-- Wherever the compiler stands, it can be led to the end of a script. -/
theorem completes (stage : Stage) : stage.Completes := by
  obtain ⟨names, mode, blocks⟩ := stage
  cases mode with
  | boundary entering =>
    cases entering with
    | false => exact completes_boundary names blocks
    | true =>
      have close : Control.LineMoves names (sample .rBrace) (blocks + 1) _ _ _ := .close rfl
      exact .step (.enter close) (completes_lineEnd _ false blocks)
  | lineEnd entering => exact completes_lineEnd names entering blocks
  | printed =>
    have text : Control.Moves names (sample .string) ⟨.printed, blocks⟩ _ _ _ := .printText rfl
    exact .step text (completes_lineEnd _ false blocks)
  | declared =>
    have name : Control.Moves names (sample .identifier) ⟨.declared, blocks⟩ _ _ _ :=
      .declared rfl
    exact .step name (completes_equals _ _ _ blocks)
  | read =>
    have name : Control.Moves names (sample .identifier) ⟨.read, blocks⟩ _ _ _ := .read rfl
    exact .step name (completes_lineEnd _ false blocks)
  | equals name first => exact completes_equals names name first blocks
  | operand clause signed => exact completes_operand names clause signed blocks
  | operator clause => exact completes_operator names clause blocks

theorem Reads.viable (read : Reads start front actions last) : Viable front := by
  obtain ⟨rest, accepted⟩ := last.completes
  exact ⟨rest, (read.accepts accepted).isScript⟩

theorem Accepts.not_refused {cause : SyntaxError.Cause} (accepted : stage.Accepts (token :: rest)) :
    stage.react token ≠ ⟨before, .refuse cause⟩ := by
  intro refused
  obtain ⟨front, last, actions, final, _, same, read, reaction⟩ := accepted
  cases read with
  | nil =>
    cases same
    rw [refused] at reaction
    cases reaction
  | cons shifted _ =>
    cases same
    rw [refused] at shifted
    cases shifted

theorem Reads.not_viable {cause : SyntaxError.Cause} (read : Reads start front actions last)
    (refused : last.react token = ⟨before, .refuse cause⟩) : ¬ Viable (front ++ [token]) := by
  rintro ⟨rest, script⟩
  have accepted : start.Accepts (front ++ token :: rest) := by
    rw [List.append_cons]
    exact script.accepts
  exact (accepted.behind read (by simp)).not_refused refused

end Stage

/-- Which faults are reported, in terms of the items that reading the text gives. -/
inductive Reported : List (Except LexError Token) → Failure → Prop where
  | opening {tokens : List Token} {fault : LexError} : tokens.length ≤ 1 →
      Reported (tokens.map .ok ++ [.error fault]) (.lexical fault)
  | pending {front : List Token} {token ahead : Token} {fault : LexError} :
      Viable (front ++ [token]) →
      Reported ((front ++ [token, ahead]).map .ok ++ [.error fault]) (.lexical fault)
  | deviation {front : List Token} {token : Token} {rest : List (Except LexError Token)}
      {cause : SyntaxError.Cause} :
      (∀ fault, rest ≠ [.error fault]) → Viable front → ¬ Viable (front ++ [token]) →
      Reported (front.map .ok ++ .ok token :: rest) (.grammatical ⟨cause, token⟩)

theorem compile_reported {source : String} {failure : Failure}
    (failed : compile source = .error failure) :
    Reported (Cursor.start source).drain.1 failure := by
  rcases compile_halts source with
    ⟨tokens, fault, short, same, early⟩ | ⟨actions, result, halts, same⟩
  · rw [failed] at early
    cases early
    rw [same]
    exact .opening short
  · rw [failed] at same
    generalize (Cursor.start source).drain.1 = items at halts ⊢
    cases halts with
    | @mk front _ _ _ last _ read ends =>
      cases ends with
      | accepted => cases same
      | refused reaction clear =>
        cases same
        exact .deviation clear read.viable (read.not_viable reaction)
      | @faulted token ahead _ _ _ fault reaction =>
        cases same
        -- The token would have been moved over, so that some script goes on with it.
        have further := read.append (Stage.Reads.single (Control.Moves.of_react reaction))
        have reported : Reported ((front ++ [token, ahead]).map .ok ++ [.error fault]) _ :=
          .pending further.viable
        simpa using reported

theorem Viable.of_append {front rest : List Token} (viable : Viable (front ++ rest)) :
    Viable front := by
  obtain ⟨more, script⟩ := viable
  exact ⟨rest ++ more, by rwa [← List.append_assoc]⟩

/-- What is reported where all tokens can be read. -/
theorem Reported.of_tokens {tokens : List Token} {failure : Failure}
    (reported : Reported (tokens.map .ok) failure) :
    ∃ before token after cause, tokens = before ++ token :: after ∧
      failure = .grammatical ⟨cause, token⟩ ∧ Viable before ∧ ¬ Viable (before ++ [token]) := by
  generalize same : tokens.map Except.ok = items at reported
  cases reported with
  | opening => exact absurd same Items.map_ne_fault
  | pending => exact absurd same Items.map_ne_fault
  | @deviation front token rest cause _ viable deviates =>
    rw [← List.append_nil (tokens.map _)] at same
    obtain ⟨after, rfl, _⟩ := Items.split_at (by simp) same
    exact ⟨front, token, after, cause, rfl, rfl, viable, deviates⟩

/-- What is reported where a fault stands behind the tokens. The last token is never blamed. -/
theorem Reported.of_fault {tokens : List Token} {fault : LexError} {failure : Failure}
    (reported : Reported (tokens.map .ok ++ [.error fault]) failure) :
    (failure = .lexical fault ∧ (tokens.length ≤ 1 ∨ Viable tokens.dropLast)) ∨
      ∃ before token after cause, failure = .grammatical ⟨cause, token⟩ ∧
        tokens = before ++ token :: after ∧ after ≠ [] ∧ Viable before ∧
        ¬ Viable (before ++ [token]) := by
  generalize same : tokens.map Except.ok ++ [Except.error fault] = items at reported
  cases reported with
  | opening short =>
    obtain ⟨rfl, rfl⟩ := Items.fault_inj same
    exact .inl ⟨rfl, .inl short⟩
  | @pending front token ahead _ viable =>
    obtain ⟨rfl, rfl⟩ := Items.fault_inj same
    refine .inl ⟨rfl, .inr ?_⟩
    rw [List.append_cons, List.dropLast_concat]
    exact viable
  | @deviation front token rest cause clear viable deviates =>
    obtain ⟨after, rfl, rfl⟩ := Items.split_at (by simp) same
    refine .inr ⟨front, token, after, cause, rfl, rfl, ?_, viable, deviates⟩
    rintro rfl
    exact clear fault rfl

/-- A deviation before the last token is one among the tokens before it as well. -/
theorem not_viable_dropLast {before after : List Token} {token : Token} (more : after ≠ [])
    (deviates : ¬ Viable (before ++ [token])) :
    ¬ ((before ++ token :: after).length ≤ 1 ∨ Viable (before ++ token :: after).dropLast) := by
  rintro (short | viable)
  · have one : 0 < after.length := List.length_pos_iff.mpr more
    simp only [List.length_append, List.length_cons] at short
    omega
  · rw [List.append_cons, List.dropLast_append_of_ne_nil more] at viable
    exact deviates viable.of_append

/-- A text is compiled if and only if its tokens can be read, follow the grammar, and declare each
name before they use it. -/
theorem compile_ok_iff (source : String) :
    (∃ output, compile source = .ok output) ↔
      ∃ tokens, tokenize source = .ok tokens ∧ Grammar.Program (tokens.map Token.kind) ∧
        DeclaredBeforeUse tokens := by
  constructor
  · rintro ⟨output, compiled⟩
    obtain ⟨front, last, actions, final, read, reads, reaction, _⟩ := compile_ok compiled
    have accepted : Stage.start.Accepts (front ++ [last]) :=
      ⟨front, last, actions, final, [], rfl, reads, reaction⟩
    exact ⟨front ++ [last], read, accepted.isScript⟩
  · rintro ⟨tokens, read, script⟩
    cases compiled : compile source with
    | ok output => exact ⟨output, rfl⟩
    | error failure =>
      have reported := compile_reported compiled
      rw [tokenize_ok_iff.mp read] at reported
      obtain ⟨before, token, after, _, rfl, _, _, deviates⟩ := reported.of_tokens
      refine absurd ⟨after, ?_⟩ deviates
      rw [← List.append_cons]
      exact script

/-- The first deviation is reported: where the tokens can be read and the text is not compiled, the
token that is blamed is the first one with which no script goes on. -/
theorem first_deviation_reported {source : String} {tokens : List Token} {failure : Failure}
    (read : tokenize source = .ok tokens) (failed : compile source = .error failure) :
    ∃ before token after cause, tokens = before ++ token :: after ∧
      failure = .grammatical ⟨cause, token⟩ ∧ Viable before ∧ ¬ Viable (before ++ [token]) := by
  have reported := compile_reported failed
  rw [tokenize_ok_iff.mp read] at reported
  exact reported.of_tokens

theorem undeclared_operand_reported :
    ∃ tokens failure, tokenize "print 1\nprint b" = .ok tokens ∧
      compile "print 1\nprint b" = .error failure ∧
      ∃ before token after cause, tokens = before ++ token :: after ∧
        failure = .grammatical ⟨cause, token⟩ ∧ Viable before ∧ ¬ Viable (before ++ [token]) := by
  have read : tokenize "print 1\nprint b" = .ok
      [⟨.print, "print", ⟨1, 1⟩⟩, ⟨.number, "1", ⟨1, 7⟩⟩, ⟨.newline, "\n", ⟨1, 8⟩⟩,
        ⟨.print, "print", ⟨2, 1⟩⟩, ⟨.identifier, "b", ⟨2, 7⟩⟩, ⟨.newline, "\n", ⟨2, 8⟩⟩,
        ⟨.eof, "", ⟨3, 1⟩⟩] := by
    cbv
  have failed : compile "print 1\nprint b" =
      .error (.grammatical ⟨.undeclaredOperand, ⟨.identifier, "b", ⟨2, 7⟩⟩⟩) := by
    cbv
  exact ⟨_, _, read, failed, first_deviation_reported read failed⟩

/-- Where a fault stands behind the tokens of a text, it is reported, or else a deviation before it.
The fault wins if it is among the first two items, or if some script starts with all tokens but the
last one, which is never looked at. -/
theorem lexical_fault_reported_iff {source : String} {fault : LexError}
    (faulty : tokenize source = .error fault) :
    ∃ tokens : List Token, (Cursor.start source).drain.1 = tokens.map .ok ++ [.error fault] ∧
      (∃ failure, compile source = .error failure) ∧
      (compile source = .error (.lexical fault) ↔
        tokens.length ≤ 1 ∨ Viable tokens.dropLast) ∧
      (compile source ≠ .error (.lexical fault) →
        ∃ before token after cause, compile source = .error (.grammatical ⟨cause, token⟩) ∧
          tokens = before ++ token :: after ∧ after ≠ [] ∧ Viable before ∧
          ¬ Viable (before ++ [token])) := by
  obtain ⟨tokens, same⟩ := tokenize_error_iff.mp faulty
  refine ⟨tokens, same, ?_⟩
  cases compiled : compile source with
  | ok output =>
    obtain ⟨front, last, _, _, read, _⟩ := compile_ok compiled
    rw [faulty] at read
    contradiction
  | error failure =>
    have reported := compile_reported compiled
    rw [same] at reported
    refine ⟨⟨failure, rfl⟩, ?_⟩
    rcases reported.of_fault with
      ⟨rfl, starts⟩ | ⟨before, token, after, cause, rfl, rfl, more, rest⟩
    · exact ⟨⟨fun _ => starts, fun _ => rfl⟩, fun other => absurd rfl other⟩
    · refine ⟨⟨?_, fun starts => absurd starts (not_viable_dropLast more rest.2)⟩, fun _ => ?_⟩
      · intro lexical
        cases lexical
      · exact ⟨before, token, after, cause, rfl, rfl, more, rest⟩

theorem fault_behind_deviation :
    tokenize "print 1 1 2 @" = .error ⟨.unknown '@', ⟨1, 13⟩⟩ ∧
    ∃ tokens : List Token,
      (Cursor.start "print 1 1 2 @").drain.1 =
        tokens.map .ok ++ [.error ⟨.unknown '@', ⟨1, 13⟩⟩] ∧
      (∃ failure, compile "print 1 1 2 @" = .error failure) ∧
      (compile "print 1 1 2 @" = .error (.lexical ⟨.unknown '@', ⟨1, 13⟩⟩) ↔
        tokens.length ≤ 1 ∨ Viable tokens.dropLast) ∧
      (compile "print 1 1 2 @" ≠ .error (.lexical ⟨.unknown '@', ⟨1, 13⟩⟩) →
        ∃ before token after cause,
          compile "print 1 1 2 @" = .error (.grammatical ⟨cause, token⟩) ∧
          tokens = before ++ token :: after ∧ after ≠ [] ∧ Viable before ∧
          ¬ Viable (before ++ [token])) := by
  have faulty : tokenize "print 1 1 2 @" = .error ⟨.unknown '@', ⟨1, 13⟩⟩ := by
    cbv
  exact ⟨faulty, lexical_fault_reported_iff faulty⟩

end ScriptToCpp
