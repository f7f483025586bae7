import ScriptToCpp.Proofs.Descent
import ScriptToCpp.Proofs.Moves
import Mathlib

/-! Recursive descent does what the grammar's machine does. Each procedure starts where a rule is
entered and goes through the states up to the one behind the rule. Rounds suffice where there are
more of them than there is still to come: that gets less with each round of a loop, and within each
block. -/
namespace ScriptToCpp

theorem Window.shift_size_le {window next : Window} {fault : LexError}
    (moved : window.shift = (.error fault, next)) : next.size ≤ window.size := by
  have kept := window.cursor.next_rest_le
  unfold shift at moved
  split at moved
  next => simp at moved
  next read =>
    rw [read] at kept
    simp only [Prod.mk.injEq] at moved
    rw [← moved.2]
    exact Nat.add_le_add_right (Nat.add_le_add_right kept _) _

namespace Parser
variable {parser : Parser} {control state target : Control} {least more rounds : Nat}
  {reached final : Parser → Prop} {parsing : Parsing} {after : Parser → Parsing}
  {run : Except Failure Unit × Window × Draft} {before behind : List Action}

/-- What becomes of the machine from a state on. -/
def machine (parser : Parser) (state : Control) : Except Failure Unit × Window × Draft :=
  parser.window.run parser.draft state

/-- What is still to come, and the tokens moved over already. -/
def total (parser : Parser) : Nat :=
  parser.window.size + parser.moved

/-- A procedure has an answer, and a run of the machine goes the same way: up to a state behind what
the procedure reads, or to the same failure. At least so many tokens are moved over, and what is
still to come gets less by one with each of them. -/
def Follows (parser : Parser) (least : Nat) (state : Control) (reached : Parser → Prop)
    (parsing : Parsing) (run : Except Failure Unit × Window × Draft) : Prop :=
  (∃ next, parsing = pure next ∧ run = next.machine state ∧ reached next ∧
    parser.moved + least ≤ next.moved ∧ next.total ≤ parser.total) ∨
  ∃ failure next, parsing = throw (failure, next) ∧
    run = (.error failure, next.window, next.draft) ∧ next.total ≤ parser.total

namespace Follows

theorem refl (here : reached parser) :
    Follows parser 0 state reached (pure parser) (parser.machine state) :=
  .inl ⟨parser, rfl, rfl, here, le_refl _, le_refl _⟩

theorem bind (first : Follows parser least control reached parsing run)
    (second : ∀ next, reached next → next.window.size + least ≤ parser.window.size →
      Follows next (more - least) state final (after next) (next.machine control)) :
    Follows parser more state final (parsing >>= after) run := by
  rcases first with ⟨next, rfl, rfl, here, moved, less⟩ | ⟨failure, next, rfl, rfl, less⟩
  · have smaller : next.window.size + least ≤ parser.window.size := by
      rw [total, total] at less
      omega
    rcases second next here smaller with
      ⟨last, parsed, same, there, moved', less'⟩ | ⟨failure, last, parsed, same, less'⟩
    · exact .inl ⟨last, parsed, same, there, by omega, less'.trans less⟩
    · exact .inr ⟨failure, last, parsed, same, less'.trans less⟩
  · exact .inr ⟨failure, next, rfl, rfl, less⟩

theorem weaken (follows : Follows parser least control reached parsing run)
    (fewer : more ≤ least) : Follows parser more control reached parsing run := by
  rcases follows with ⟨next, rfl, rfl, there, moved, less⟩ | failed
  · exact .inl ⟨next, rfl, rfl, there, by omega, less⟩
  · exact .inr failed

/-- The token is moved over. -/
theorem shift
    (reacts : control.react parser.draft.names parser.token = ⟨before, .shift behind state⟩)
    (goesOn : ∀ next, next.window.size < parser.window.size →
      Follows next (least - 1) target final (after next) ((next.performAll behind).machine state)) :
    Follows parser least target final ((parser.performAll before).shift >>= after)
      (parser.machine control) := by
  have notEnd : (parser.performAll before).token.kind ≠ .eof := by
    intro last
    exact control.react_eof _ last behind state (congrArg Reaction.verdict reacts)
  have same : (parser.performAll before).window = parser.window := rfl
  rw [Parser.shift, if_neg notEnd, same]
  rcases moved : parser.window.shift with ⟨fault | _, window⟩
  · refine .inr ⟨.lexical fault, _, rfl, Window.run_fault reacts moved, ?_⟩
    exact Nat.add_le_add_right (Window.shift_size_le moved) _
  · have smaller := Window.shift_size_lt moved notEnd
    have further : parser.machine control =
        (Parser.performAll ⟨window, parser.draft.performAll before, parser.moved + 1⟩
          behind).machine state := by
      rw [machine, Window.run_shift reacts moved, Draft.performAll_append]
      rfl
    have less : window.size + (parser.moved + 1) ≤ parser.total := by
      rw [total]
      omega
    rw [further]
    rcases goesOn ⟨window, parser.draft.performAll before, parser.moved + 1⟩ smaller with
      ⟨last, parsed, run, there, moved', less'⟩ | ⟨failure, last, parsed, run, less'⟩
    · dsimp only at moved'
      exact .inl ⟨last, parsed, run, there, by omega, less'.trans less⟩
    · exact .inr ⟨failure, last, parsed, run, less'.trans less⟩

/-- The token is refused. -/
theorem refuse {cause : SyntaxError.Cause}
    (reacts : control.react parser.draft.names parser.token = ⟨before, .refuse cause⟩) :
    Follows parser least target final ((parser.performAll before).refuse cause)
      (parser.machine control) :=
  .inr ⟨_, _, rfl, Window.run_refuse reacts, le_refl _⟩

/-- The token is moved over if it is the one that is asked for. -/
theorem eat {kind : Kind}
    (reacts : control.react parser.draft.names parser.token =
      (Reaction.require kind parser.token behind state).precededBy before)
    (goesOn : ∀ next, next.window.size < parser.window.size →
      Follows next (least - 1) target final (after next) ((next.performAll behind).machine state)) :
    Follows parser least target final ((parser.performAll before).eat kind >>= after)
      (parser.machine control) := by
  have same : (parser.performAll before).token = parser.token := rfl
  rw [Parser.eat, same]
  by_cases asked : parser.token.kind = kind
  · rw [Reaction.require, if_pos asked, Reaction.precededBy, List.append_nil] at reacts
    rw [if_pos asked]
    exact shift reacts goesOn
  · rw [Reaction.require, if_neg asked, Reaction.precededBy, List.append_nil] at reacts
    rw [if_neg asked]
    exact .inr ⟨_, _, rfl, Window.run_refuse reacts, le_refl _⟩

end Follows

/-- A state that reacts as another one does, but for something that is done first, is that state
with it done. -/
theorem machine_precededBy {actions : List Action}
    (reacts : control.react parser.draft.names parser.token =
      (state.react parser.draft.names parser.token).precededBy actions)
    (quiet : (parser.draft.performAll actions).names = parser.draft.names) :
    parser.machine control = (parser.performAll actions).machine state := by
  have names : (parser.performAll actions).draft.names = parser.draft.names := quiet
  have token : (parser.performAll actions).token = parser.token := rfl
  have twice (own : List Action) : parser.draft.performAll (actions ++ own) =
      (parser.performAll actions).draft.performAll own := parser.draft.performAll_append actions own
  rw [machine, machine]
  rcases reaction : state.react parser.draft.names parser.token with ⟨own, verdict⟩
  rw [reaction, Reaction.precededBy] at reacts
  rw [← names, ← token] at reaction
  cases verdict with
  | accept => rw [Window.run_accept reacts, Window.run_accept reaction, twice]; rfl
  | refuse cause => rw [Window.run_refuse reacts, Window.run_refuse reaction, twice]; rfl
  | shift after next =>
    rcases moved : parser.window.shift with ⟨fault | _, window⟩
    · rw [Window.run_fault reacts moved, Window.run_fault reaction moved, twice]
    · rw [Window.run_shift reacts moved, Window.run_shift reaction moved, List.append_assoc, twice]

/-- Actions that enroll no name do not change what is known. -/
theorem performAll_quiet {actions : List Action}
    (quiet : Action.enrolledAll parser.draft.names actions = parser.draft.names) :
    (parser.draft.performAll actions).names = parser.draft.names := by
  rw [Draft.performAll_names, quiet]

/-! Line breaks -/

theorem skipLineBreaks_follows (entering : Bool) (blocks : Nat)
    (enough : parser.window.size < rounds) :
    Follows parser 0 ⟨.boundary entering, blocks⟩ (fun next => next.token.kind ≠ .newline)
      (parser.skipLineBreaks rounds) (parser.machine ⟨.boundary entering, blocks⟩) := by
  induction rounds generalizing parser with
  | zero => contradiction
  | succ rounds ih =>
    rw [skipLineBreaks]
    by_cases kind : parser.token.kind = .newline
    · rw [if_pos kind]
      refine Follows.shift (Control.Moves.skip kind).react fun next smaller => ?_
      exact ih (smaller.trans_le (Nat.le_of_lt_succ enough))
    · rw [if_neg kind]
      exact .refl kind

theorem lineEnd_follows (entering : Bool) (blocks : Nat) (enough : parser.window.size < rounds) :
    Follows parser 1 ⟨.boundary entering, blocks⟩ (fun next => next.token.kind ≠ .newline)
      (parser.lineEnd rounds) (parser.machine ⟨.lineEnd entering, blocks⟩) := by
  have reacts : Control.react parser.draft.names ⟨.lineEnd entering, blocks⟩ parser.token =
      (Reaction.require .newline parser.token [] ⟨.boundary entering, blocks⟩).precededBy
        [.note .newline] := rfl
  exact .eat reacts fun next smaller =>
    next.skipLineBreaks_follows entering blocks (smaller.trans enough)

/-! Expressions -/

theorem primary_follows (parser : Parser) (clause : Clause) (signed : Bool) (blocks : Nat)
    (unsigned : signed = false → parser.token.kind.isAdditive = false) :
    Follows parser 1 ⟨.operator clause, blocks⟩ (fun _ => True) parser.primary
      (parser.machine ⟨.operand clause signed, blocks⟩) := by
  have names : (parser.performAll [.note (.primary parser.token.text)]).draft.names =
      parser.draft.names := performAll_quiet rfl
  have sign : ¬ (!signed && (parser.token.kind = .plus || parser.token.kind = .minus)) = true := by
    intro sign
    simp only [Bool.and_eq_true, Bool.not_eq_true', Bool.or_eq_true, decide_eq_true_eq] at sign
    obtain ⟨rfl, kind | kind⟩ := sign <;> simp [kind, Kind.isAdditive] at unsigned
  have reacts : Control.react parser.draft.names ⟨.operand clause signed, blocks⟩ parser.token =
      Control.primary parser.draft.names clause blocks parser.token := if_neg sign
  rw [primary]
  simp only [names]
  split
  next kind =>
    simp only [Control.primary, kind] at reacts
    exact Follows.shift reacts fun _ _ => .refl trivial
  next kind =>
    split
    next known =>
      simp only [Control.primary, kind, if_pos known] at reacts
      exact Follows.shift reacts fun _ _ => .refl trivial
    next unknown =>
      simp only [Control.primary, kind, if_neg unknown] at reacts
      exact .refuse reacts
  next =>
    rw [Control.primary] at reacts
    split at reacts
    · contradiction
    · contradiction
    · exact .refuse reacts

theorem unary_follows (parser : Parser) (clause : Clause) (blocks : Nat) :
    Follows parser 1 ⟨.operator clause, blocks⟩ (fun _ => True) parser.unary
      ((parser.performAll Control.enterUnary).machine ⟨.operand clause false, blocks⟩) := by
  rw [unary]
  split
  next sign =>
    refine Follows.shift (Control.Moves.operand (.sign sign)).react fun next _ => ?_
    exact ((next.performAll _).primary_follows clause true blocks nofun).weaken (Nat.zero_le _)
  next unsigned =>
    exact (parser.performAll _).primary_follows clause false blocks fun _ =>
      Bool.eq_false_iff.mpr unsigned

section Further
variable {operator : Kind → Bool} {item : Parser → Parsing} {opening clause : Clause} {blocks : Nat}
  {enter : List Action}

/-- One more item behind an operator, and then the others. -/
theorem further_step (sign : operator parser.token.kind = true)
    (moves : Control.OperatorMoves parser.token blocks opening []
      (.write (" " ++ parser.token.text ++ " ") :: enter) ⟨.operand clause false, blocks⟩)
    (items : ∀ next : Parser, next.window.size < parser.window.size →
      Follows next 1 ⟨.operator clause, blocks⟩ reached (item next)
        ((next.performAll enter).machine ⟨.operand clause false, blocks⟩))
    (others : ∀ next : Parser, next.window.size < parser.window.size → reached next →
      Follows next 0 ⟨.operator clause, blocks⟩ final (next.further operator item rounds)
        (next.machine ⟨.operator clause, blocks⟩)) :
    Follows parser 2 ⟨.operator clause, blocks⟩ final (parser.further operator item (rounds + 1))
      (parser.machine ⟨.operator opening, blocks⟩) := by
  rw [further, if_pos sign]
  refine .shift (Control.Moves.operator moves).react fun middle smaller => ?_
  refine .bind (items (middle.performAll _) smaller) fun next there less => ?_
  exact others next (Nat.lt_trans less smaller) there

/-- The loop over further items ends before a token that is no operator of its own. -/
theorem further_follows
    (moves : ∀ token : Token, operator token.kind = true →
      Control.OperatorMoves token blocks clause [] (.write (" " ++ token.text ++ " ") :: enter)
        ⟨.operand clause false, blocks⟩)
    (ends : ∀ parser, reached parser → operator parser.token.kind = false → final parser)
    (items : ∀ next : Parser, next.window.size < parser.window.size →
      Follows next 1 ⟨.operator clause, blocks⟩ reached (item next)
        ((next.performAll enter).machine ⟨.operand clause false, blocks⟩))
    (here : reached parser) (enough : parser.window.size < rounds) :
    Follows parser 0 ⟨.operator clause, blocks⟩ final (parser.further operator item rounds)
      (parser.machine ⟨.operator clause, blocks⟩) := by
  induction rounds generalizing parser with
  | zero => contradiction
  | succ rounds ih =>
    by_cases sign : operator parser.token.kind = true
    · refine (further_step sign (moves _ sign) items fun next smaller there => ?_).weaken
        (Nat.zero_le _)
      exact ih (fun last less => items last (less.trans smaller)) there
        (smaller.trans_le (Nat.le_of_lt_succ enough))
    · rw [further, if_neg sign]
      exact .refl (ends parser here (Bool.eq_false_iff.mpr sign))

end Further

def BehindTerm (parser : Parser) : Prop :=
  parser.token.kind.isMultiplicative = false

def BehindExpression (parser : Parser) : Prop :=
  parser.BehindTerm ∧ parser.token.kind.isAdditive = false

def BehindComparison (parser : Parser) : Prop :=
  parser.BehindExpression ∧ parser.token.kind.isComparison = false

theorem term_follows (clause : Clause) (blocks : Nat) (enough : parser.window.size < rounds) :
    Follows parser 1 ⟨.operator clause, blocks⟩ BehindTerm (parser.term rounds)
      ((parser.performAll Control.enterTerm).machine ⟨.operand clause false, blocks⟩) := by
  refine .bind ((parser.performAll _).unary_follows clause blocks) fun next there smaller => ?_
  exact further_follows (fun _ => .scale) (fun _ _ other => other)
    (fun last _ => last.unary_follows clause blocks) there (Nat.lt_trans smaller enough)

theorem expression_follows (clause : Clause) (blocks : Nat)
    (enough : parser.window.size < rounds) :
    Follows parser 1 ⟨.operator clause, blocks⟩ BehindExpression (parser.expression rounds)
      ((parser.performAll Control.enterExpression).machine ⟨.operand clause false, blocks⟩) := by
  refine .bind ((parser.performAll _).term_follows clause blocks enough)
    fun next there smaller => ?_
  have enough' : next.window.size < rounds := Nat.lt_trans smaller enough
  exact further_follows (fun _ => .add) (fun _ => And.intro)
    (fun last less => last.term_follows clause blocks (less.trans enough')) there enough'

/-- Behind an expression its clause is over, unless something can be compared. -/
theorem react_finish (there : parser.BehindExpression) (clause : Clause)
    (other : (∃ compared, clause = .condition compared) → parser.token.kind.isComparison = false)
    (names : List String) (blocks : Nat) :
    Control.react names ⟨.operator clause, blocks⟩ parser.token =
      Control.finish clause blocks parser.token := by
  obtain ⟨notFactor, notTerm⟩ := there
  simp only [Control.react, Control.operator]
  unfold BehindTerm at notFactor
  split
  case h_5 =>
    rw [other ⟨_, rfl⟩]
    rfl
  case h_6 => rfl
  all_goals simp_all [Kind.isMultiplicative, Kind.isAdditive]

theorem comparison_follows (blocks : Nat) (enough : parser.window.size < rounds) :
    Follows parser 3 ⟨.operator (.condition true), blocks⟩ BehindComparison
      (parser.comparison rounds)
      ((parser.performAll Control.enterComparison).machine
        ⟨.operand (.condition false) false, blocks⟩) := by
  refine .bind ((parser.performAll _).expression_follows (.condition false) blocks enough)
    fun next there smaller => ?_
  have enough' : next.window.size < rounds := Nat.lt_trans smaller enough
  split
  next sign =>
    obtain ⟨rounds, rfl⟩ := Nat.exists_eq_add_one_of_ne_zero (Nat.ne_zero_of_lt enough')
    have items (last : Parser) (less : last.window.size < next.window.size) :=
      last.expression_follows (.condition true) blocks (less.trans enough')
    refine further_step sign (.compare sign) items fun last less there => ?_
    exact further_follows (fun _ => .compare) (fun _ => And.intro)
      (fun item less' => items item (less'.trans less)) there
      (less.trans_le (Nat.le_of_lt_succ enough'))
  next other =>
    have reacts : Control.react next.draft.names ⟨.operator (.condition false), blocks⟩ next.token =
        ⟨[], .refuse .expectedComparison⟩ :=
      react_finish there _ (fun _ => Bool.eq_false_iff.mpr other) _ blocks
    exact .refuse reacts

/-! Statements -/

/-- The line must end behind a value that is printed or given to a name. -/
theorem machine_print (there : parser.BehindExpression) (blocks : Nat) :
    parser.machine ⟨.operator .print, blocks⟩ =
      (parser.performAll [.write ") << endl;\n"]).machine ⟨.lineEnd false, blocks⟩ :=
  machine_precededBy (react_finish there .print nofun _ blocks) (performAll_quiet rfl)

theorem machine_value (there : parser.BehindExpression) (blocks : Nat) :
    parser.machine ⟨.operator .value, blocks⟩ =
      (parser.performAll [.write ";\n"]).machine ⟨.lineEnd false, blocks⟩ :=
  machine_precededBy (react_finish there .value nofun _ blocks) (performAll_quiet rfl)

theorem print_follows (blocks : Nat) (kind : parser.token.kind = .print)
    (enough : parser.window.size < rounds) :
    Follows parser 2 ⟨.lineEnd false, blocks⟩ (fun _ => True) (parser.print rounds)
      (parser.machine ⟨.boundary false, blocks⟩) := by
  refine .shift (Control.Moves.line (.print kind)).react fun next smaller => ?_
  split
  next string => exact .shift (Control.Moves.printText string).react fun _ _ => .refl trivial
  next other =>
    have reacts : Control.react next.draft.names ⟨.printed, blocks⟩ next.token =
        (Control.react next.draft.names ⟨.operand .print false, blocks⟩ next.token).precededBy
          (.startLine "cout << (double)(" :: Control.enterExpression) := if_neg other
    change Follows next 1 _ _ _ (next.machine ⟨.printed, blocks⟩)
    rw [machine_precededBy reacts (performAll_quiet rfl)]
    refine .bind ((next.performAll _).expression_follows .print blocks (smaller.trans enough))
      fun last there _ => ?_
    rw [machine_print there]
    exact .refl trivial

theorem value_follows (name : String) (first : Bool) (blocks : Nat)
    (enough : parser.window.size < rounds) :
    Follows parser 2 ⟨.lineEnd false, blocks⟩ (fun _ => True)
      (parser.value rounds ((if first then "double " else "") ++ Cpp.variableName name))
      (parser.machine ⟨.equals name first, blocks⟩) := by
  have reacts : Control.react parser.draft.names ⟨.equals name first, blocks⟩ parser.token =
      (Reaction.require .eq parser.token
        (.startLine ((if first then "double " else "") ++ Cpp.variableName name ++ " = ") ::
          Control.enterExpression) ⟨.operand .value false, blocks⟩).precededBy [] := rfl
  refine .eat reacts fun next smaller => ?_
  refine .bind ((next.performAll _).expression_follows .value blocks (smaller.trans enough))
    fun last there _ => ?_
  rw [machine_value there]
  exact .refl trivial

theorem declare_follows (blocks : Nat) (kind : parser.token.kind = .declare)
    (enough : parser.window.size < rounds) :
    Follows parser 2 ⟨.lineEnd false, blocks⟩ (fun _ => True) (parser.declare rounds)
      (parser.machine ⟨.boundary false, blocks⟩) := by
  refine .shift (Control.Moves.line (.declare kind)).react fun next smaller => ?_
  have reacts : Control.react next.draft.names ⟨.declared, blocks⟩ next.token =
      (Reaction.require .identifier next.token [.enroll next.token.text]
        ⟨.equals next.token.text (next.token.text ∉ next.draft.names), blocks⟩).precededBy [] := rfl
  refine .eat reacts fun last smaller' => ?_
  have value := (last.performAll [.enroll next.token.text]).value_follows next.token.text
    (next.token.text ∉ next.draft.names) blocks (smaller'.trans (smaller.trans enough))
  exact value.weaken (Nat.zero_le _)

theorem assign_follows (blocks : Nat) (kind : parser.token.kind = .identifier)
    (enough : parser.window.size < rounds) :
    Follows parser 2 ⟨.lineEnd false, blocks⟩ (fun _ => True) (parser.assign rounds)
      (parser.machine ⟨.boundary false, blocks⟩) := by
  have names : (parser.performAll [.note (.statement .assign)]).draft.names =
      parser.draft.names := performAll_quiet rfl
  rw [assign]
  simp only [names]
  split
  next known =>
    refine .shift (Control.Moves.line (.assign kind known)).react fun next smaller => ?_
    have value := next.value_follows parser.token.text false blocks (smaller.trans enough)
    rw [if_neg Bool.false_ne_true, String.empty_append] at value
    exact value.weaken (Nat.le_succ _)
  next unknown =>
    have reacts : Control.react parser.draft.names ⟨.boundary false, blocks⟩ parser.token =
        ⟨[.note (.statement .assign)], .refuse .undeclaredTarget⟩ := by
      simp [Control.react, Control.boundary, Control.line, Control.statement, kind, unknown]
    exact .refuse reacts

theorem input_follows (blocks : Nat) (kind : parser.token.kind = .input) :
    Follows parser 2 ⟨.lineEnd false, blocks⟩ (fun _ => True) parser.input
      (parser.machine ⟨.boundary false, blocks⟩) := by
  refine .shift (Control.Moves.line (.input kind)).react fun next _ => ?_
  have reacts : Control.react next.draft.names ⟨.read, blocks⟩ next.token =
      (Reaction.require .identifier next.token [.enroll next.token.text]
        ⟨.lineEnd false, blocks⟩).precededBy [] := rfl
  exact .eat reacts fun _ _ => .refl trivial

theorem blockHead_follows {form : StatementForm} {opening : String} {blocks : Nat}
    (moves : Control.LineMoves parser.draft.names parser.token blocks [.note (.statement form)]
      (.startLine opening :: Control.enterComparison) ⟨.operand (.condition false) false, blocks⟩)
    (enough : parser.window.size < rounds) :
    Follows parser 6 ⟨.boundary true, blocks⟩ (fun next => next.token.kind ≠ .newline)
      (parser.blockHead rounds form opening) (parser.machine ⟨.boundary false, blocks⟩) := by
  refine .shift (Control.Moves.line moves).react fun head smaller => ?_
  refine .bind ((head.performAll [.startLine opening]).comparison_follows blocks
    (smaller.trans enough)) fun brace there less => ?_
  have reacts : Control.react brace.draft.names ⟨.operator (.condition true), blocks⟩ brace.token =
      (Reaction.require .lBrace brace.token [.write ") \x7b\n"] ⟨.lineEnd true, blocks⟩).precededBy
        [] := react_finish there.1 _ (fun _ => there.2) _ blocks
  refine .eat reacts fun last smaller' => ?_
  have enough' : last.window.size < rounds := by
    change brace.window.size + 3 ≤ head.window.size at less
    omega
  exact (last.performAll _).lineEnd_follows true blocks enough'

/-- A block is entered at its first line. -/
theorem machine_enter (line : parser.token.kind ≠ .newline) (blocks : Nat) :
    parser.machine ⟨.boundary true, blocks⟩ =
      (parser.performAll [.indent]).machine ⟨.boundary false, blocks + 1⟩ := by
  apply machine_precededBy _ (performAll_quiet rfl)
  simp only [Control.react, Control.boundary, if_neg line]
  rfl

def BehindBody (parser : Parser) : Prop :=
  parser.token.kind = .rBrace ∨ parser.token.kind = .eof

theorem blockEnd_follows (there : parser.BehindBody) (blocks : Nat) :
    Follows parser 1 ⟨.lineEnd false, blocks⟩ (fun _ => True) parser.blockEnd
      (parser.machine ⟨.boundary false, blocks + 1⟩) := by
  have reacts : Control.react parser.draft.names ⟨.boundary false, blocks + 1⟩ parser.token =
      (Reaction.require .rBrace parser.token [.startLine "\x7d\n"]
        ⟨.lineEnd false, blocks⟩).precededBy [.unindent] := by
    rcases there with kind | kind <;>
      simp [Control.react, Control.boundary, Control.line, Reaction.require, Reaction.precededBy,
        kind]
  exact .eat reacts fun _ _ => .refl trivial

section Statements
variable {body : Parser → Parsing} {blocks : Nat}

/-- The statements of a block, whatever the number of blocks around it. -/
def BodyFollows (body : Parser → Parsing) (parser : Parser) : Prop :=
  ∀ blocks, parser.token.kind ≠ .newline →
    Follows parser 0 ⟨.boundary false, blocks + 1⟩ BehindBody (body parser)
      (parser.machine ⟨.boundary false, blocks + 1⟩)

theorem block_follows {form : StatementForm} {opening : String}
    (inner : ∀ next : Parser, next.window.size < parser.window.size → next.BodyFollows body)
    (moves : Control.LineMoves parser.draft.names parser.token blocks [.note (.statement form)]
      (.startLine opening :: Control.enterComparison) ⟨.operand (.condition false) false, blocks⟩)
    (enough : parser.window.size < rounds) :
    Follows parser 2 ⟨.lineEnd false, blocks⟩ (fun _ => True)
      (parser.block rounds body form opening) (parser.machine ⟨.boundary false, blocks⟩) := by
  refine .bind (blockHead_follows moves enough) fun first line less => ?_
  rw [machine_enter line]
  have smaller : first.window.size < parser.window.size := by omega
  refine .bind (inner (first.performAll [.indent]) smaller blocks line) fun _ there _ => ?_
  exact (blockEnd_follows there blocks).weaken (Nat.zero_le _)

theorem form_follows
    (inner : ∀ next : Parser, next.window.size < parser.window.size → next.BodyFollows body)
    (line : parser.token.kind ≠ .newline) (more : parser.token.kind ≠ .eof)
    (outermost : parser.token.kind = .rBrace → blocks = 0)
    (enough : parser.window.size < rounds) :
    Follows parser 2 ⟨.lineEnd false, blocks⟩ (fun _ => True) (parser.form rounds body)
      (parser.machine ⟨.boundary false, blocks⟩) := by
  rw [form]
  split
  next kind => exact print_follows blocks kind enough
  next kind => exact block_follows inner (.ifBlock kind) enough
  next kind => exact block_follows inner (.whileBlock kind) enough
  next kind => exact declare_follows blocks kind enough
  next kind => exact input_follows blocks kind
  next kind => exact assign_follows blocks kind enough
  next =>
    have reacts : Control.react parser.draft.names ⟨.boundary false, blocks⟩ parser.token =
        ⟨[], .refuse .invalidStatement⟩ := by
      simp only [Control.react, Control.boundary, if_neg line, Bool.false_eq_true, if_false]
      unfold Control.line
      split
      next kind => exact absurd kind more
      next kind => exact absurd kind more
      next kind => exact absurd (outermost kind) (Nat.succ_ne_zero _)
      next =>
        unfold Control.statement
        split
        case h_7 => rfl
        all_goals contradiction
    exact .refuse reacts

theorem line_follows
    (inner : ∀ next : Parser, next.window.size < parser.window.size → next.BodyFollows body)
    (line : parser.token.kind ≠ .newline) (more : parser.token.kind ≠ .eof)
    (outermost : parser.token.kind = .rBrace → blocks = 0)
    (enough : parser.window.size < rounds) :
    Follows parser 3 ⟨.boundary false, blocks⟩ (fun next => next.token.kind ≠ .newline)
      (parser.line rounds body) (parser.machine ⟨.boundary false, blocks⟩) := by
  refine .bind (form_follows inner line more outermost enough) fun next _ less => ?_
  have enough' : next.window.size < rounds := by omega
  exact next.lineEnd_follows false blocks enough'

end Statements

/-- The blocks within a statement and the statements behind it both start with less to come, so that
a round less is enough for them. -/
theorem body_follows (enough : parser.window.size < rounds) : parser.BodyFollows (body rounds) := by
  induction rounds generalizing parser with
  | zero => contradiction
  | succ rounds ih =>
    intro blocks line
    rw [body]
    split
    next there => exact .refl there
    next more =>
      rw [not_or] at more
      have inner (next : Parser) (smaller : next.window.size < parser.window.size) :
          next.BodyFollows (body rounds) := ih (smaller.trans_le (Nat.le_of_lt_succ enough))
      have first : Follows parser 3 ⟨.boundary false, blocks + 1⟩ _ _ _ :=
        line_follows inner line more.2 (fun kind => absurd kind more.1) enough
      refine .bind first fun next line less => ?_
      have smaller : next.window.size < parser.window.size := by omega
      exact inner next smaller blocks line

theorem statement_follows (line : parser.token.kind ≠ .newline) (more : parser.token.kind ≠ .eof)
    (enough : parser.window.size < rounds) :
    Follows parser 3 .start (fun next => next.token.kind ≠ .newline) (parser.statement rounds)
      (parser.machine .start) :=
  line_follows (fun _ smaller => body_follows (smaller.trans enough)) line more (fun _ => rfl)
    enough

theorem statements_follows (line : parser.token.kind ≠ .newline)
    (enough : parser.window.size < rounds) :
    Follows parser 0 .start (fun next => next.token.kind = .eof) (parser.statements rounds)
      (parser.machine .start) := by
  induction rounds generalizing parser with
  | zero => contradiction
  | succ rounds ih =>
    rw [statements]
    split
    next last => exact .refl last
    next more =>
      refine .bind (statement_follows line more enough) fun next line less => ?_
      have enough' : next.window.size < rounds := by omega
      exact ih line enough'

theorem script_follows (enough : parser.window.size < rounds) :
    Follows parser 0 .start (fun next => next.token.kind = .eof) (parser.script rounds)
      (parser.machine .start) :=
  .bind (skipLineBreaks_follows false 0 enough) fun _ line smaller =>
    statements_follows line (Nat.lt_of_le_of_lt smaller enough)

end Parser
end ScriptToCpp
