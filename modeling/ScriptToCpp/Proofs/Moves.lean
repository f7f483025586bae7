import ScriptToCpp.Grammar.Control
import ScriptToCpp.Proofs.Language

/-! The ways in which the grammar moves on to the next token, one rule for each. Proofs about what
is read go by these rules and need not look into the reactions themselves. -/
namespace ScriptToCpp.Control

/-- A line starts, or a block ends. -/
inductive LineMoves (names : List String) (token : Token) :
    Nat → List Action → List Action → Control → Prop where
  | close {outer : Nat} : token.kind = .rBrace →
      LineMoves names token (outer + 1) [.unindent] [.startLine "\x7d\n"] ⟨.lineEnd false, outer⟩
  | print {blocks : Nat} : token.kind = .print →
      LineMoves names token blocks [.note (.statement .print)] [] ⟨.printed, blocks⟩
  | ifBlock {blocks : Nat} : token.kind = .ifWord →
      LineMoves names token blocks [.note (.statement .ifBlock)]
        (.startLine "if(" :: enterComparison) ⟨.operand (.condition false) false, blocks⟩
  | whileBlock {blocks : Nat} : token.kind = .whileWord →
      LineMoves names token blocks [.note (.statement .whileBlock)]
        (.startLine "while(" :: enterComparison) ⟨.operand (.condition false) false, blocks⟩
  | declare {blocks : Nat} : token.kind = .declare →
      LineMoves names token blocks [.note (.statement .declare)] [] ⟨.declared, blocks⟩
  | input {blocks : Nat} : token.kind = .input →
      LineMoves names token blocks [.note (.statement .input)] [] ⟨.read, blocks⟩
  | assign {blocks : Nat} : token.kind = .identifier → token.text ∈ names →
      LineMoves names token blocks [.note (.statement .assign)] []
        ⟨.equals token.text false, blocks⟩

/-- An operand is read, or its sign. -/
inductive OperandMoves (names : List String) (token : Token) (clause : Clause) (blocks : Nat) :
    Bool → List Action → List Action → Control → Prop where
  | sign : token.kind.isAdditive →
      OperandMoves names token clause blocks false [] [.write token.text]
        ⟨.operand clause true, blocks⟩
  | number {signed : Bool} : token.kind = .number →
      OperandMoves names token clause blocks signed [.note (.primary token.text)]
        [.write (Cpp.numberLiteral token.text)] ⟨.operator clause, blocks⟩
  | name {signed : Bool} : token.kind = .identifier → token.text ∈ names →
      OperandMoves names token clause blocks signed [.note (.primary token.text)]
        [.write (Cpp.variableName token.text)] ⟨.operator clause, blocks⟩

/-- An expression goes on, or the clause that it stands in is over. -/
inductive OperatorMoves (token : Token) (blocks : Nat) :
    Clause → List Action → List Action → Control → Prop where
  | scale {clause : Clause} : token.kind.isMultiplicative →
      OperatorMoves token blocks clause [] (.write (" " ++ token.text ++ " ") :: enterUnary)
        ⟨.operand clause false, blocks⟩
  | add {clause : Clause} : token.kind.isAdditive →
      OperatorMoves token blocks clause [] (.write (" " ++ token.text ++ " ") :: enterTerm)
        ⟨.operand clause false, blocks⟩
  | compare {compared : Bool} : token.kind.isComparison →
      OperatorMoves token blocks (.condition compared) []
        (.write (" " ++ token.text ++ " ") :: enterExpression)
        ⟨.operand (.condition true) false, blocks⟩
  | endPrint : token.kind = .newline →
      OperatorMoves token blocks .print [.write ") << endl;\n", .note .newline] []
        ⟨.boundary false, blocks⟩
  | endValue : token.kind = .newline →
      OperatorMoves token blocks .value [.write ";\n", .note .newline] [] ⟨.boundary false, blocks⟩
  | endCondition : token.kind = .lBrace →
      OperatorMoves token blocks (.condition true) [] [.write ") \x7b\n"] ⟨.lineEnd true, blocks⟩

inductive Moves (names : List String) (token : Token) :
    Control → List Action → List Action → Control → Prop where
  | skip {entering : Bool} {blocks : Nat} : token.kind = .newline →
      Moves names token ⟨.boundary entering, blocks⟩ [] [] ⟨.boundary entering, blocks⟩
  | line {blocks : Nat} {before after : List Action} {next : Control} :
      LineMoves names token blocks before after next →
      Moves names token ⟨.boundary false, blocks⟩ before after next
  | enter {blocks : Nat} {before after : List Action} {next : Control} :
      LineMoves names token (blocks + 1) before after next →
      Moves names token ⟨.boundary true, blocks⟩ (.indent :: before) after next
  | lineEnd {entering : Bool} {blocks : Nat} : token.kind = .newline →
      Moves names token ⟨.lineEnd entering, blocks⟩ [.note .newline] []
        ⟨.boundary entering, blocks⟩
  | printText {blocks : Nat} : token.kind = .string →
      Moves names token ⟨.printed, blocks⟩ []
        [.startLine ("cout << \"" ++ token.text ++ "\" << endl;\n")] ⟨.lineEnd false, blocks⟩
  | printValue {blocks : Nat} {before after : List Action} {next : Control} :
      OperandMoves names token .print blocks false before after next →
      Moves names token ⟨.printed, blocks⟩
        (.startLine "cout << (double)(" :: enterExpression ++ before) after next
  | declared {blocks : Nat} : token.kind = .identifier →
      Moves names token ⟨.declared, blocks⟩ [] [.enroll token.text]
        ⟨.equals token.text (token.text ∉ names), blocks⟩
  | read {blocks : Nat} : token.kind = .identifier →
      Moves names token ⟨.read, blocks⟩ [] [.enroll token.text] ⟨.lineEnd false, blocks⟩
  | equals {name : String} {first : Bool} {blocks : Nat} : token.kind = .eq →
      Moves names token ⟨.equals name first, blocks⟩ []
        (.startLine ((if first then "double " else "") ++ Cpp.variableName name ++ " = ") ::
          enterExpression)
        ⟨.operand .value false, blocks⟩
  | operand {clause : Clause} {signed : Bool} {blocks : Nat} {before after : List Action}
      {next : Control} :
      OperandMoves names token clause blocks signed before after next →
      Moves names token ⟨.operand clause signed, blocks⟩ before after next
  | operator {clause : Clause} {blocks : Nat} {before after : List Action} {next : Control} :
      OperatorMoves token blocks clause before after next →
      Moves names token ⟨.operator clause, blocks⟩ before after next

variable {names : List String} {token : Token} {control next : Control} {clause : Clause}
  {blocks : Nat} {before after : List Action}

theorem LineMoves.react (moves : LineMoves names token blocks before after next) :
    line names blocks token = ⟨before, .shift after next⟩ := by
  cases moves <;> simp_all [line, statement, block]

theorem OperandMoves.react {signed : Bool}
    (moves : OperandMoves names token clause blocks signed before after next) :
    operand names clause signed blocks token = ⟨before, .shift after next⟩ := by
  cases moves with
  | sign kind =>
    unfold Kind.isAdditive at kind
    split at kind <;> simp_all [operand]
  | number kind => simp [operand, primary, kind]
  | name kind known => simp [operand, primary, kind, known]

theorem OperatorMoves.react (moves : OperatorMoves token blocks clause before after next) :
    operator clause blocks token = ⟨before, .shift after next⟩ := by
  cases moves with
  | scale kind =>
    unfold Kind.isMultiplicative at kind
    split at kind <;> simp_all [operator]
  | add kind =>
    unfold Kind.isAdditive at kind
    split at kind <;> simp_all [operator]
  | compare kind =>
    unfold Kind.isComparison at kind
    split at kind <;> simp_all [operator, Kind.isComparison]
  | endPrint kind =>
    simp [operator, finish, Control.lineEnd, Reaction.require, Reaction.precededBy, kind]
  | endValue kind =>
    simp [operator, finish, Control.lineEnd, Reaction.require, Reaction.precededBy, kind]
  | endCondition kind => simp [operator, finish, Reaction.require, Kind.isComparison, kind]

theorem LineMoves.notBreak (moves : LineMoves names token blocks before after next) :
    token.kind ≠ .newline := by
  cases moves <;> simp_all

theorem Moves.react (moves : Moves names token control before after next) :
    control.react names token = ⟨before, .shift after next⟩ := by
  cases moves with
  | skip kind => simp [Control.react, boundary, kind]
  | line moves => simp [Control.react, boundary, moves.notBreak, moves.react]
  | enter moves =>
    simp [Control.react, boundary, moves.notBreak, moves.react, Reaction.precededBy]
  | lineEnd kind =>
    simp [Control.react, Control.lineEnd, Reaction.require, Reaction.precededBy, kind]
  | printText kind => simp [Control.react, printed, kind]
  | printValue moves =>
    have different : token.kind ≠ .string := by
      cases moves with
      | sign kind => intro same; simp [same, Kind.isAdditive] at kind
      | number kind => simp [kind]
      | name kind => simp [kind]
    simp [Control.react, printed, different, moves.react, Reaction.precededBy]
  | declared kind => simp [Control.react, Reaction.require, kind]
  | read kind => simp [Control.react, Reaction.require, kind]
  | equals kind => simp [Control.react, Reaction.require, kind]
  | operand moves => exact moves.react
  | operator moves => exact moves.react

theorem require_shift {kind : Kind} {done : List Action} {target : Control}
    (reaction : Reaction.require kind token done target = ⟨before, .shift after next⟩) :
    token.kind = kind ∧ before = [] ∧ after = done ∧ next = target := by
  unfold Reaction.require at reaction
  split at reaction <;> simp_all

theorem precededBy_shift {reaction : Reaction} {actions : List Action}
    (moved : reaction.precededBy actions = ⟨before, .shift after next⟩) :
    ∃ own, reaction = ⟨own, .shift after next⟩ ∧ before = actions ++ own := by
  obtain ⟨own, verdict⟩ := reaction
  simp only [Reaction.precededBy, Reaction.mk.injEq] at moved
  exact ⟨own, by rw [moved.2], moved.1.symm⟩

theorem LineMoves.of_react (reaction : line names blocks token = ⟨before, .shift after next⟩) :
    LineMoves names token blocks before after next := by
  unfold line at reaction
  split at reaction
  case h_1 => simp at reaction
  case h_2 => simp at reaction
  case h_3 kind =>
    simp only [Reaction.mk.injEq, Verdict.shift.injEq] at reaction
    obtain ⟨rfl, rfl, rfl⟩ := reaction
    exact .close kind
  case h_4 =>
    unfold statement at reaction
    split at reaction
    case h_6 kind =>
      split at reaction
      next known =>
        simp only [Reaction.mk.injEq, Verdict.shift.injEq] at reaction
        obtain ⟨rfl, rfl, rfl⟩ := reaction
        exact .assign kind known
      next => simp at reaction
    case h_7 => simp at reaction
    all_goals
      rename_i kind
      simp only [block, Reaction.mk.injEq, Verdict.shift.injEq] at reaction
      obtain ⟨rfl, rfl, rfl⟩ := reaction
      constructor
      exact kind

theorem OperandMoves.of_react {signed : Bool}
    (reaction : operand names clause signed blocks token = ⟨before, .shift after next⟩) :
    OperandMoves names token clause blocks signed before after next := by
  unfold operand at reaction
  split at reaction
  next sign =>
    simp only [Bool.and_eq_true, Bool.not_eq_true', Bool.or_eq_true, decide_eq_true_eq] at sign
    obtain ⟨rfl, kind⟩ := sign
    simp only [Reaction.mk.injEq, Verdict.shift.injEq] at reaction
    obtain ⟨rfl, rfl, rfl⟩ := reaction
    refine .sign ?_
    rcases kind with kind | kind <;> simp [kind, Kind.isAdditive]
  next =>
    simp only [primary, Reaction.mk.injEq] at reaction
    obtain ⟨rfl, verdict⟩ := reaction
    split at verdict
    next kind =>
      simp only [Verdict.shift.injEq] at verdict
      obtain ⟨rfl, rfl⟩ := verdict
      exact .number kind
    next kind =>
      split at verdict
      next known =>
        simp only [Verdict.shift.injEq] at verdict
        obtain ⟨rfl, rfl⟩ := verdict
        exact .name kind known
      next => simp at verdict
    next => simp at verdict

theorem lineEnd_shift {entering : Bool}
    (reaction : lineEnd entering blocks token = ⟨before, .shift after next⟩) :
    token.kind = .newline ∧ before = [.note .newline] ∧ after = [] ∧
      next = ⟨.boundary entering, blocks⟩ := by
  obtain ⟨own, inner, rfl⟩ := precededBy_shift reaction
  obtain ⟨kind, rfl, rfl, rfl⟩ := require_shift inner
  exact ⟨kind, rfl, rfl, rfl⟩

theorem OperatorMoves.of_finish
    (reaction : finish clause blocks token = ⟨before, .shift after next⟩) :
    OperatorMoves token blocks clause before after next := by
  unfold finish at reaction
  split at reaction
  next =>
    obtain ⟨own, inner, rfl⟩ := precededBy_shift reaction
    obtain ⟨kind, rfl, rfl, rfl⟩ := lineEnd_shift inner
    exact .endPrint kind
  next =>
    obtain ⟨own, inner, rfl⟩ := precededBy_shift reaction
    obtain ⟨kind, rfl, rfl, rfl⟩ := lineEnd_shift inner
    exact .endValue kind
  next => simp at reaction
  next =>
    obtain ⟨kind, rfl, rfl, rfl⟩ := require_shift reaction
    exact .endCondition kind

theorem OperatorMoves.of_react
    (reaction : operator clause blocks token = ⟨before, .shift after next⟩) :
    OperatorMoves token blocks clause before after next := by
  unfold operator at reaction
  split at reaction
  case h_5 =>
    split at reaction
    next kind =>
      simp only [Reaction.mk.injEq, Verdict.shift.injEq] at reaction
      obtain ⟨rfl, rfl, rfl⟩ := reaction
      exact .compare kind
    next => exact .of_finish reaction
  case h_6 => exact .of_finish reaction
  all_goals
    rename_i kind
    simp only [Reaction.mk.injEq, Verdict.shift.injEq] at reaction
    obtain ⟨rfl, rfl, rfl⟩ := reaction
  · exact .scale (by rw [kind]; rfl)
  · exact .scale (by rw [kind]; rfl)
  · exact .add (by rw [kind]; rfl)
  · exact .add (by rw [kind]; rfl)

/-- There are no other moves. -/
theorem Moves.of_react (reaction : control.react names token = ⟨before, .shift after next⟩) :
    Moves names token control before after next := by
  obtain ⟨mode, blocks⟩ := control
  cases mode with
  | boundary entering =>
    simp only [Control.react, boundary] at reaction
    split at reaction
    next kind =>
      simp only [Reaction.mk.injEq, Verdict.shift.injEq] at reaction
      obtain ⟨rfl, rfl, rfl⟩ := reaction
      exact .skip kind
    next =>
      cases entering with
      | true =>
        obtain ⟨own, inner, rfl⟩ := precededBy_shift reaction
        exact .enter (.of_react inner)
      | false => exact .line (.of_react reaction)
  | lineEnd entering =>
    obtain ⟨kind, rfl, rfl, rfl⟩ := lineEnd_shift reaction
    exact .lineEnd kind
  | printed =>
    simp only [Control.react, printed] at reaction
    split at reaction
    next kind =>
      simp only [Reaction.mk.injEq, Verdict.shift.injEq] at reaction
      obtain ⟨rfl, rfl, rfl⟩ := reaction
      exact .printText kind
    next =>
      obtain ⟨own, inner, rfl⟩ := precededBy_shift reaction
      exact .printValue (.of_react inner)
  | declared =>
    obtain ⟨kind, rfl, rfl, rfl⟩ := require_shift reaction
    exact .declared kind
  | read =>
    obtain ⟨kind, rfl, rfl, rfl⟩ := require_shift reaction
    exact .read kind
  | equals name first =>
    obtain ⟨kind, rfl, rfl, rfl⟩ := require_shift reaction
    exact .equals kind
  | operand clause signed => exact .operand (.of_react reaction)
  | operator clause => exact .operator (.of_react reaction)

theorem line_accept (verdict : (line names blocks token).verdict = .accept) :
    token.kind = .eof ∧ blocks = 0 ∧ (line names blocks token).before = [] := by
  unfold line at verdict ⊢
  split at verdict
  case h_1 kind => exact ⟨kind, rfl, rfl⟩
  case h_4 =>
    unfold statement at verdict
    split at verdict
    case h_6 => split at verdict <;> contradiction
    all_goals contradiction
  all_goals contradiction

theorem require_accept {kind : Kind} {done : List Action} {target : Control} :
    (Reaction.require kind token done target).verdict ≠ .accept := by
  unfold Reaction.require
  split <;> simp

theorem operand_accept {signed : Bool} :
    (operand names clause signed blocks token).verdict ≠ .accept := by
  unfold operand primary
  split
  · simp
  · dsimp only
    split
    · simp
    · split <;> simp
    · simp

theorem finish_accept : (finish clause blocks token).verdict ≠ .accept := by
  unfold finish
  split
  · exact require_accept
  · exact require_accept
  · simp
  · exact require_accept

theorem operator_accept : (operator clause blocks token).verdict ≠ .accept := by
  unfold operator
  split
  case h_5 =>
    split
    · simp
    · exact finish_accept
  case h_6 => exact finish_accept
  all_goals simp

/-- A script is accepted at its end, outside of all blocks. -/
theorem accept_iff :
    control.react names token = ⟨before, .accept⟩ ↔
      control = ⟨.boundary false, 0⟩ ∧ token.kind = .eof ∧ before = [] := by
  constructor
  · intro reaction
    have verdict : (control.react names token).verdict = .accept := by rw [reaction]
    obtain ⟨mode, blocks⟩ := control
    cases mode with
    | boundary entering =>
      simp only [Control.react, boundary] at reaction verdict
      split at verdict
      next => contradiction
      next kind =>
        rw [if_neg kind] at reaction
        cases entering with
        | true => exact absurd (line_accept verdict).2.1 (Nat.succ_ne_zero blocks)
        | false =>
          obtain ⟨last, rfl, nothing⟩ := line_accept verdict
          rw [if_neg (by decide)] at reaction
          rw [reaction] at nothing
          exact ⟨rfl, last, nothing⟩
    | printed =>
      simp only [Control.react, printed] at verdict
      split at verdict
      · contradiction
      · exact absurd verdict operand_accept
    | operand clause signed => exact absurd verdict operand_accept
    | operator clause => exact absurd verdict operator_accept
    | lineEnd | declared | read | equals => exact absurd verdict require_accept
  · rintro ⟨rfl, last, rfl⟩
    simp [Control.react, boundary, line, last]

end ScriptToCpp.Control
