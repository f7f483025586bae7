import ScriptToCpp.Proofs.Indentation
import ScriptToCpp.Proofs.ParsingEnds
import Mathlib

/-! What is left of the indentation where parsing stops. A statement that is complete has taken back
what it added. One that fails leaves the indentation of every block whose statements are being read
just then; a block whose statements have come to an end has lost it already, also if no brace closes
the block. -/
namespace ScriptToCpp

/-- The parts of a block, in the order in which they are read. -/
inductive BlockPart where
  /-- The condition and what follows it up to the first line. -/
  | head
  /-- The statements. -/
  | body
  /-- The closing brace. -/
  | ending
  deriving DecidableEq

namespace Parser

/-- The parser behind what a procedure reads; or a failure, the parser that it leaves, and for each
block that is being read the part in which the failure arises, the outermost block first. -/
abbrev Tracking := ExceptT (Failure × Parser × List BlockPart) Option Parser

namespace Tracking

/-- What is read is in no block. -/
def plain (parsing : Parsing) : Tracking :=
  parsing.adapt fun (failure, parser) => (failure, parser, [])

/-- What is read is a part of a block. -/
def within (part : BlockPart) (tracking : Tracking) : Tracking :=
  tracking.adapt fun (failure, parser, parts) => (failure, parser, part :: parts)

/-- Leaves out where a failure arises. -/
def forget (tracking : Tracking) : Parsing :=
  tracking.adapt fun (failure, parser, _) => (failure, parser)

section Statements
variable (rounds : Nat) (body : Parser → Tracking)

def block (parser : Parser) (form : StatementForm) (opening : String) : Tracking := do
  let parser ← within .head (plain (parser.blockHead rounds form opening))
  -- A failure that comes out of the loop over the statements finds it entered and not left.
  let parser ← within .body (body (parser.performAll [.indent]))
  within .ending (plain parser.blockEnd)

def form (parser : Parser) : Tracking :=
  match parser.token.kind with
  | .print => plain (parser.print rounds)
  | .ifWord => block rounds body parser .ifBlock "if("
  | .whileWord => block rounds body parser .whileBlock "while("
  | .declare => plain (parser.declare rounds)
  | .input => plain parser.input
  | .identifier => plain (parser.assign rounds)
  | _ => plain (parser.refuse .invalidStatement)

def line (parser : Parser) : Tracking := do
  let parser ← form rounds body parser
  plain (parser.lineEnd rounds)

end Statements

def body : Nat → Parser → Tracking
  | 0, _ => .mk none
  | rounds + 1, parser =>
    if parser.token.kind = .rBrace ∨ parser.token.kind = .eof then pure parser
    else do
      let parser ← line (rounds + 1) (body rounds) parser
      body rounds parser

def statement (rounds : Nat) (parser : Parser) : Tracking :=
  line rounds (body rounds) parser

def statements : Nat → Parser → Tracking
  | 0, _ => .mk none
  | rounds + 1, parser =>
    if parser.token.kind = .eof then pure parser
    else do
      let parser ← statement (rounds + 1) parser
      statements rounds parser

def program (rounds : Nat) (parser : Parser) : Tracking := do
  let parser ← plain ({ parser with draft := parser.draft.opened }.skipLineBreaks rounds)
  let parser ← statements rounds parser
  return { parser with draft := parser.draft.closed }

/-! Without the parts these are the procedures of the descent. -/

theorem forget_plain (parsing : Parsing) : forget (plain parsing) = parsing := by
  rcases parsing with _ | (_ | _) <;> rfl

theorem forget_within (part : BlockPart) (tracking : Tracking) :
    forget (within part tracking) = forget tracking := by
  rcases tracking with _ | (_ | _) <;> rfl

theorem forget_bind (tracking : Tracking) (after : Parser → Tracking) :
    forget (tracking >>= after) = forget tracking >>= fun next => forget (after next) := by
  rcases tracking with _ | (_ | _) <;> rfl

theorem forget_block (rounds : Nat) (body : Parser → Tracking) (parser : Parser)
    (form : StatementForm) (opening : String) :
    forget (block rounds body parser form opening) =
      parser.block rounds (fun next => forget (body next)) form opening := by
  simp only [block, Parser.block, forget_bind, forget_within, forget_plain]

theorem forget_form (rounds : Nat) (body : Parser → Tracking) (parser : Parser) :
    forget (form rounds body parser) = parser.form rounds fun next => forget (body next) := by
  rw [form, Parser.form]
  cases parser.token.kind <;> simp only [forget_plain, forget_block]

theorem forget_line (rounds : Nat) (body : Parser → Tracking) (parser : Parser) :
    forget (line rounds body parser) = parser.line rounds fun next => forget (body next) := by
  simp only [line, Parser.line, forget_bind, forget_form, forget_plain]

theorem forget_body (rounds : Nat) (parser : Parser) :
    forget (body rounds parser) = parser.body rounds := by
  induction rounds generalizing parser with
  | zero => rfl
  | succ rounds ih =>
    rw [body, Parser.body]
    split
    · rfl
    · simp only [forget_bind, forget_line, ih]

theorem forget_statement (rounds : Nat) (parser : Parser) :
    forget (statement rounds parser) = parser.statement rounds := by
  simp only [statement, Parser.statement, forget_line, forget_body]

theorem forget_statements (rounds : Nat) (parser : Parser) :
    forget (statements rounds parser) = parser.statements rounds := by
  induction rounds generalizing parser with
  | zero => rfl
  | succ rounds ih =>
    rw [statements, Parser.statements]
    split
    · rfl
    · simp only [forget_bind, forget_statement, ih]

theorem forget_program (rounds : Nat) (parser : Parser) :
    forget (program rounds parser) = parser.program rounds := by
  simp only [program, Parser.program, script, forget_bind, forget_plain, forget_statements,
    bind_assoc]
  rfl

end Tracking

/-- Whatever answer there is, it is of this kind: the parser that it ends with, or its failure. -/
structure Answers {ε : Type} (done : Parser → Prop) (failed : ε → Prop)
    (answer : ExceptT ε Option Parser) : Prop where
  ok : ∀ next, answer.run = some (.ok next) → done next
  error : ∀ error, answer.run = some (.error error) → failed error

namespace Answers
variable {ε δ : Type} {done reached : Parser → Prop} {failed : ε → Prop} {failed' : δ → Prop}
  {answer : ExceptT ε Option Parser} {after : Parser → ExceptT ε Option Parser} {parser : Parser}

theorem none : Answers done failed (.mk none) := by
  constructor
  · rintro next ⟨⟩
  · rintro error ⟨⟩

theorem pure (here : done parser) : Answers done failed (Pure.pure parser) := by
  constructor
  · rintro next ⟨⟩
    exact here
  · rintro error ⟨⟩

theorem throw {error : ε} (here : failed error) :
    Answers done failed (MonadExcept.throw error) := by
  constructor
  · rintro next ⟨⟩
  · rintro other ⟨⟩
    exact here

theorem bind (first : Answers reached failed answer)
    (second : ∀ next, reached next → Answers done failed (after next)) :
    Answers done failed (answer >>= after) := by
  rcases answer with _ | (error | next)
  · exact none
  · exact throw (first.error error rfl)
  · exact second next (first.ok next rfl)

theorem adapt {change : ε → δ} (answers : Answers done failed answer)
    (carried : ∀ error, failed error → failed' (change error)) :
    Answers done failed' (answer.adapt change) := by
  rcases answer with _ | (error | next)
  · exact none
  · exact throw (carried error (answers.error error rfl))
  · exact pure (answers.ok next rfl)

end Answers

section Level
variable {parser : Parser} {depth rounds : Nat}

/-- However a procedure ends, lines are indented as far as before; and it is not for want of a
closing brace that it fails. -/
def Level (depth : Nat) : Parsing → Prop :=
  Answers (fun next => next.draft.depth = depth) fun (failure, next) =>
    next.draft.depth = depth ∧ ∀ token, failure ≠ .grammatical ⟨.expected .rBrace, token⟩

theorem performAll_level {actions : List Action} (same : parser.draft.depth = depth)
    (flat : actions.all Action.isFlat) : (parser.performAll actions).draft.depth = depth :=
  (parser.draft.performAll_depth actions).trans ((Action.levelAll_flat flat).trans same)

theorem shift_level (same : parser.draft.depth = depth) : Level depth parser.shift := by
  unfold shift
  split
  · exact .none
  · split
    · exact .pure same
    · exact .throw ⟨same, nofun⟩

theorem refuse_level {cause : SyntaxError.Cause} (same : parser.draft.depth = depth)
    (other : cause ≠ .expected .rBrace) : Level depth (parser.refuse cause) := by
  refine .throw ⟨same, fun token found => other ?_⟩
  cases found
  rfl

theorem eat_level {kind : Kind} (same : parser.draft.depth = depth) (other : kind ≠ .rBrace) :
    Level depth (parser.eat kind) := by
  unfold eat
  split
  · exact shift_level same
  · refine refuse_level same fun found => other ?_
    cases found
    rfl

theorem skipLineBreaks_level (same : parser.draft.depth = depth) :
    Level depth (parser.skipLineBreaks rounds) := by
  induction rounds generalizing parser with
  | zero => exact .none
  | succ rounds ih =>
    rw [skipLineBreaks]
    split
    · exact .bind (shift_level same) fun next there => ih there
    · exact .pure same

theorem lineEnd_level (same : parser.draft.depth = depth) :
    Level depth (parser.lineEnd rounds) := by
  refine .bind (eat_level (performAll_level same rfl) (by decide)) fun next there => ?_
  exact skipLineBreaks_level there

theorem primary_level (same : parser.draft.depth = depth) : Level depth parser.primary := by
  have here : (parser.performAll [.note (.primary parser.token.text)]).draft.depth = depth :=
    performAll_level same rfl
  have shifted (text : String) : Level depth do
      let parser ← (parser.performAll [.note (.primary parser.token.text)]).shift
      return parser.performAll [.write text] :=
    .bind (shift_level here) fun next there => .pure (performAll_level there rfl)
  rw [primary]
  split
  · exact shifted _
  · split
    · exact shifted _
    · exact refuse_level here (by decide)
  · exact refuse_level here (by decide)

theorem unary_level (same : parser.draft.depth = depth) : Level depth parser.unary := by
  rw [unary]
  split
  · refine .bind (shift_level (performAll_level same rfl)) fun next there => ?_
    exact primary_level (performAll_level there rfl)
  · exact primary_level (performAll_level same rfl)

theorem further_level {operator : Kind → Bool} {item : Parser → Parsing}
    (items : ∀ next : Parser, next.draft.depth = depth → Level depth (item next))
    (same : parser.draft.depth = depth) : Level depth (parser.further operator item rounds) := by
  induction rounds generalizing parser with
  | zero => exact .none
  | succ rounds ih =>
    rw [further]
    split
    · refine .bind (shift_level same) fun next there => ?_
      exact .bind (items _ (performAll_level there rfl)) fun last behind => ih behind
    · exact .pure same

theorem term_level (same : parser.draft.depth = depth) : Level depth (parser.term rounds) := by
  refine .bind (unary_level (performAll_level same rfl)) fun next there => ?_
  exact further_level (fun _ => unary_level) there

theorem expression_level (same : parser.draft.depth = depth) :
    Level depth (parser.expression rounds) := by
  refine .bind (term_level (performAll_level same rfl)) fun next there => ?_
  exact further_level (fun _ => term_level) there

theorem comparison_level (same : parser.draft.depth = depth) :
    Level depth (parser.comparison rounds) := by
  refine .bind (expression_level (performAll_level same rfl)) fun next there => ?_
  split
  · exact further_level (fun _ => expression_level) there
  · exact refuse_level there (by decide)

theorem print_level (same : parser.draft.depth = depth) : Level depth (parser.print rounds) := by
  refine .bind (shift_level (performAll_level same rfl)) fun next there => ?_
  split
  · exact .bind (shift_level there) fun last behind => .pure (performAll_level behind rfl)
  · exact .bind (expression_level (performAll_level there rfl)) fun last behind =>
      .pure (performAll_level behind rfl)

theorem value_level {target : String} (same : parser.draft.depth = depth) :
    Level depth (parser.value rounds target) := by
  refine .bind (eat_level same (by decide)) fun next there => ?_
  exact .bind (expression_level (performAll_level there rfl)) fun last behind =>
    .pure (performAll_level behind rfl)

theorem declare_level (same : parser.draft.depth = depth) :
    Level depth (parser.declare rounds) := by
  refine .bind (shift_level (performAll_level same rfl)) fun next there => ?_
  refine .bind (eat_level there (by decide)) fun last behind => ?_
  exact value_level (performAll_level behind rfl)

theorem assign_level (same : parser.draft.depth = depth) : Level depth (parser.assign rounds) := by
  have here : (parser.performAll [.note (.statement .assign)]).draft.depth = depth :=
    performAll_level same rfl
  rw [assign]
  split
  · exact .bind (shift_level here) fun next there => value_level there
  · exact refuse_level here (by decide)

theorem input_level (same : parser.draft.depth = depth) : Level depth parser.input := by
  refine .bind (shift_level (performAll_level same rfl)) fun next there => ?_
  exact .bind (eat_level there (by decide)) fun last behind => .pure (performAll_level behind rfl)

theorem blockHead_level {form : StatementForm} {opening : String}
    (same : parser.draft.depth = depth) :
    Level depth (parser.blockHead rounds form opening) := by
  refine .bind (shift_level (performAll_level same rfl)) fun next there => ?_
  refine .bind (comparison_level (performAll_level there rfl)) fun brace behind => ?_
  refine .bind (eat_level behind (by decide)) fun last opened => ?_
  exact lineEnd_level (performAll_level opened rfl)

end Level

/-- What a failure leaves, if lines were indented so far before: one level more for each block whose
statements are being read. A block that no brace closes before the script ends is none of these,
but all blocks around it are. -/
structure BrokenOff (depth : Nat) (failure : Failure) (next : Parser) (parts : List BlockPart) :
    Prop where
  depth_eq : next.draft.depth = depth + parts.count .body
  unclosed : ∀ token, failure = .grammatical ⟨.expected .rBrace, token⟩ →
    token.kind = .eof ∧ ∃ around, parts = List.replicate around .body ++ [.ending]

namespace Tracking
variable {parser : Parser} {depth rounds : Nat}

/-- A failure leaves of the indentation what is due. -/
def Accounts (depth : Nat) (done : Parser → Prop) : Tracking → Prop :=
  Answers done fun (failure, next, parts) => BrokenOff depth failure next parts

/-- What is read to its end leaves the indentation as it was. -/
def Restores (depth : Nat) : Tracking → Prop :=
  Accounts depth fun next => next.draft.depth = depth

theorem within_plain (part : BlockPart) (parsing : Parsing) :
    within part (plain parsing) =
      parsing.adapt fun (failure, parser) => (failure, parser, [part]) := by
  rcases parsing with _ | (_ | _) <;> rfl

theorem restores_level {parsing : Parsing} (level : Level depth parsing)
    {parts : List BlockPart} (outside : parts.count .body = 0) :
    Restores depth (parsing.adapt fun (failure, parser) => (failure, parser, parts)) := by
  refine level.adapt fun (failure, next) ⟨same, other⟩ => ⟨?_, fun token found => ?_⟩
  · rw [outside]
    exact same
  · exact absurd found (other token)

theorem restores_plain {parsing : Parsing} (level : Level depth parsing) :
    Restores depth (plain parsing) :=
  restores_level level rfl

/-- A failure within the statements of a block leaves the indentation of that block too. -/
theorem accounts_within_body {done : Parser → Prop} {tracking : Tracking}
    (accounts : Accounts (depth + 1) done tracking) :
    Accounts depth done (within .body tracking) := by
  refine accounts.adapt fun (failure, next, parts) ⟨same, unclosed⟩ => ⟨?_, fun token found => ?_⟩
  · rw [List.count_cons_self]
    omega
  · obtain ⟨last, around, rfl⟩ := unclosed token found
    exact ⟨last, around + 1, rfl⟩

/-- The indentation of a block is taken back before its closing brace is asked for. -/
theorem restores_ending (same : parser.draft.depth = depth + 1) (there : parser.BehindBody) :
    Restores depth (within .ending (plain parser.blockEnd)) := by
  have here : (parser.performAll [.unindent]).draft.depth = depth := by
    change parser.draft.depth - 1 = depth
    omega
  rw [within_plain, blockEnd]
  by_cases closed : (parser.performAll [.unindent]).token.kind = .rBrace
  · have level : Level depth ((parser.performAll [.unindent]).eat .rBrace) := by
      rw [eat, if_pos closed]
      exact shift_level here
    exact restores_level (.bind level fun next there => .pure (performAll_level there rfl)) rfl
  · rw [eat, if_neg closed]
    refine .throw ⟨here, fun token found => ?_⟩
    cases found
    exact ⟨there.resolve_left closed, 0, rfl⟩

section Statements
variable {body : Parser → Tracking}

/-- The statements of a block, down to what ends them. -/
def BodyAccounts (depth : Nat) (body : Parser → Tracking) : Prop :=
  ∀ next : Parser, next.draft.depth = depth →
    Accounts depth (fun last => last.draft.depth = depth ∧ last.BehindBody) (body next)

theorem restores_block {form : StatementForm} {opening : String}
    (inner : BodyAccounts (depth + 1) body) (same : parser.draft.depth = depth) :
    Restores depth (block rounds body parser form opening) := by
  have head : Restores depth (within .head (plain (parser.blockHead rounds form opening))) := by
    rw [within_plain]
    exact restores_level (blockHead_level same) rfl
  refine .bind head fun first there => ?_
  have entered : (first.performAll [.indent]).draft.depth = depth + 1 :=
    congrArg (· + 1) there
  refine .bind (accounts_within_body (inner _ entered)) fun last ⟨behind, ended⟩ => ?_
  exact restores_ending behind ended

theorem restores_form (inner : BodyAccounts (depth + 1) body)
    (same : parser.draft.depth = depth) :
    Restores depth (form rounds body parser) := by
  unfold form
  split
  · exact restores_plain (print_level same)
  · exact restores_block inner same
  · exact restores_block inner same
  · exact restores_plain (declare_level same)
  · exact restores_plain (input_level same)
  · exact restores_plain (assign_level same)
  · exact restores_plain (refuse_level same (by decide))

theorem restores_line (inner : BodyAccounts (depth + 1) body)
    (same : parser.draft.depth = depth) :
    Restores depth (line rounds body parser) :=
  .bind (restores_form inner same) fun _ there => restores_plain (lineEnd_level there)

end Statements

theorem accounts_body : BodyAccounts depth (body rounds) := by
  induction rounds generalizing depth with
  | zero => exact fun _ _ => .none
  | succ rounds ih =>
    intro parser same
    rw [body]
    split
    next ended => exact .pure ⟨same, ended⟩
    next => exact .bind (restores_line ih same) fun next there => ih next there

theorem restores_statement (same : parser.draft.depth = depth) :
    Restores depth (statement rounds parser) :=
  restores_line accounts_body same

theorem restores_statements (same : parser.draft.depth = depth) :
    Restores depth (statements rounds parser) := by
  induction rounds generalizing parser with
  | zero => exact .none
  | succ rounds ih =>
    rw [statements]
    split
    · exact .pure same
    · exact .bind (restores_statement same) fun next there => ih there

theorem restores_program (same : parser.draft.depth = depth) :
    Restores depth (program rounds parser) := by
  have opened : parser.draft.opened.depth = depth := parser.draft.opened_depth.trans same
  refine .bind (restores_plain (skipLineBreaks_level opened)) fun next there => ?_
  exact .bind (restores_statements there) fun last behind => .pure behind

/-- Where there is an answer without the parts, there is one with them. -/
theorem Restores.answered {tracking : Tracking} {outcome : Except (Failure × Parser) Parser}
    (restores : Restores depth tracking) (answered : (forget tracking).run = some outcome) :
    ∃ tracked, tracking.run = some tracked ∧
      match tracked with
      | .ok next => outcome = .ok next ∧ next.draft.depth = depth
      | .error (failure, next, parts) => outcome = .error (failure, next) ∧
          BrokenOff depth failure next parts := by
  rcases tracking with _ | (⟨failure, next, parts⟩ | next)
  · contradiction
  · cases answered
    exact ⟨_, rfl, rfl, restores.error _ rfl⟩
  · cases answered
    exact ⟨_, rfl, rfl, restores.ok _ rfl⟩

/-- A statement comes to its end with the indentation that it found, or it breaks off. -/
theorem statement_accounted (enough : parser.window.size < rounds) :
    ∃ outcome, (statement rounds parser).run = some outcome ∧
      match outcome with
      | .ok next => parser.statement rounds = pure next ∧ next.draft.depth = parser.draft.depth
      | .error (failure, next, parts) => parser.statement rounds = throw (failure, next) ∧
          BrokenOff parser.draft.depth failure next parts := by
  obtain ⟨outcome, answered, _⟩ := parser.statement_answers enough
  have restores : Restores parser.draft.depth (statement rounds parser) := restores_statement rfl
  rw [← forget_statement] at answered ⊢
  obtain ⟨tracked, ran, same⟩ := restores.answered answered
  refine ⟨tracked, ran, ?_⟩
  rcases tracked with ⟨failure, next, parts⟩ | next
  · rw [same.1] at answered
    exact ⟨answered, same.2⟩
  · rw [same.1] at answered
    exact ⟨answered, same.2⟩

theorem program_accounted (session : Session) (enough : session.window.size < rounds) :
    ∃ outcome, (program rounds (ofSession session)).run = some outcome ∧
      match outcome with
      | .ok last => session.program = (.ok (), last.session) ∧
          last.draft.depth = session.draft.depth
      | .error (failure, last, parts) => session.program = (.error failure, last.session) ∧
          BrokenOff session.draft.depth failure last parts := by
  have enough' : (ofSession session).window.size < rounds := enough
  obtain ⟨result, next, settled, same, _⟩ := program_answers enough'
  have restores : Restores session.draft.depth (program rounds (ofSession session)) :=
    restores_program rfl
  rw [← forget_program] at settled
  obtain ⟨outcome, answered, ends⟩ := Option.map_eq_some_iff.mp settled
  obtain ⟨tracked, ran, told⟩ := restores.answered answered
  refine ⟨tracked, ran, ?_⟩
  rcases tracked with ⟨failure, last, parts⟩ | last
  · obtain ⟨rfl, broken⟩ := told
    cases ends
    exact ⟨same, broken⟩
  · obtain ⟨rfl, kept⟩ := told
    cases ends
    exact ⟨same, kept⟩

end Tracking
end Parser

/-- The depth of the indentation accounts for the blocks that are being read. Whatever programs a
session was asked for before, in the course of the next one the depth is never below one, and it is
above one wherever a level is taken back; what the program leaves is one of the drafts that this is
said of. A program that is complete leaves the depth that it found. One that fails leaves a level
more for each block whose statements were being read just then: where the script ends before a
closing brace, not for the block that lacks it, but for all blocks around that one. The same is true
of every statement, whatever the parser that reads it has gone through. -/
theorem depth_counts_open_blocks {source : String} {output : Cpp.Output} {tracing : Bool}
    {session : Session} (opened : Session.ofSource source output tracing = .ok session) :
    (∀ count, let reached := (session.programs count).2
      1 ≤ reached.draft.depth ∧
      (∀ taken, reached.Takes taken → 1 ≤ (reached.drafted taken).depth) ∧
      (∀ taken, reached.Takes (taken ++ [.unindent]) → 1 < (reached.drafted taken).depth) ∧
      (∃ taken, reached.Takes taken ∧
        (reached.program.2.draft = reached.drafted taken ∨
          reached.program.2.draft = (reached.drafted taken).closed)) ∧
      ∀ rounds, reached.window.size < rounds →
        ∃ outcome, (Parser.Tracking.program rounds (.ofSession reached)).run = some outcome ∧
          match outcome with
          | .ok last => reached.program = (.ok (), last.session) ∧
              last.draft.depth = reached.draft.depth
          | .error (failure, last, parts) => reached.program = (.error failure, last.session) ∧
              Parser.BrokenOff reached.draft.depth failure last parts) ∧
    ∀ (parser : Parser) (rounds : Nat), parser.window.size < rounds →
      ∃ outcome, (Parser.Tracking.statement rounds parser).run = some outcome ∧
        match outcome with
        | .ok next => parser.statement rounds = pure next ∧
            next.draft.depth = parser.draft.depth
        | .error (failure, next, parts) => parser.statement rounds = throw (failure, next) ∧
            Parser.BrokenOff parser.draft.depth failure next parts := by
  have start : session.draft.depth = 1 := by
    unfold Session.ofSource at opened
    split at opened
    · cases opened
      rfl
    · contradiction
  refine ⟨fun count => ?_, fun _ _ enough => Parser.Tracking.statement_accounted enough⟩
  have indented : 1 ≤ (session.programs count).2.draft.depth :=
    start.symm.trans_le (session.depth_le_programs count)
  exact ⟨indented, fun _ takes => indented.trans takes.depth_le,
    fun _ takes => indented.trans_lt (takes.lt_depth indented), Session.program_takes _,
    fun _ enough => Parser.Tracking.program_accounted _ enough⟩

/-- A block that is closed, and then two of which the inner one runs into the end of the script. The
program that is asked for next starts there, a level too deep, and keeps to it. -/
theorem unclosed_block_not_counted :
    ∃ session failure last, Session.ofSource
        "if 1<2\x7b\n\x7d\nif 1<2\x7b\nif 1<2\x7b" default false = .ok session ∧
      (∃ taken, session.Takes (taken ++ [.unindent]) ∧ 1 < (session.drafted taken).depth) ∧
      (Parser.Tracking.program 40 (.ofSession session)).run =
        some (.error (failure, last, [.body, .ending])) ∧
      session.program = (.error failure, last.session) ∧ last.draft.depth = 2 ∧
      (∃ again, session.program.2.program = (.ok (), again) ∧ again.draft.depth = 2) ∧
      ∃ next, (Parser.ofSession session).statement 40 = pure next ∧ next.draft.depth = 1 := by
  obtain ⟨session, opened, depths, sizes, ⟨all, takes, ended⟩, failed, resumed, complete⟩ :
      ∃ session, Session.ofSource "if 1<2\x7b\n\x7d\nif 1<2\x7b\nif 1<2\x7b" default false =
          .ok session ∧
        (session.draft.depth = 1 ∧ session.program.2.draft.depth = 2) ∧
        (session.window.size < 40 ∧ session.program.2.window.size < 40) ∧
        (∃ all, session.Takes all ∧ all.getLast? = some .unindent) ∧
        session.program.1 = .error (.grammatical ⟨.expected .rBrace, ⟨.eof, "", ⟨5, 1⟩⟩⟩) ∧
        session.program.2.program.1 = .ok () ∧
        ((Parser.ofSession session).statement 40).run.map Except.toBool = some true :=
    ⟨_, by cbv, ⟨by cbv, by cbv⟩, ⟨by cbv, by cbv⟩,
      -- Six tokens stand before the brace that closes the first block.
      ⟨_, Window.Takes.behind (by cbv) (by cbv) (.behind (by cbv) (by cbv)
        (.behind (by cbv) (by cbv) (.behind (by cbv) (by cbv) (.behind (by cbv) (by cbv)
          (.behind (by cbv) (by cbv) (.here (List.prefix_refl _))))))), by cbv⟩,
      by cbv, by cbv, by cbv⟩
  obtain ⟨program, statement⟩ := depth_counts_open_blocks opened
  obtain ⟨_, _, above, _, first⟩ := program 0
  obtain ⟨_, _, _, _, second⟩ := program 1
  have unindents : session.Takes (all.dropLast ++ [.unindent]) := by
    rw [List.dropLast_append_getLast? _ ended]
    exact takes
  have again : ∃ again, session.program.2.program = (.ok (), again) ∧ again.draft.depth = 2 := by
    obtain ⟨_ | last, _, same, kept⟩ := second 40 sizes.2
    · cases (congrArg Prod.fst same).symm.trans resumed
    · exact ⟨_, same, kept.trans depths.2⟩
  have closed : ∃ next, (Parser.ofSession session).statement 40 = pure next ∧
      next.draft.depth = 1 := by
    obtain ⟨_ | next, _, same, kept⟩ := statement (.ofSession session) 40 sizes.1
    · rw [same] at complete
      cases complete
    · exact ⟨next, same, kept.trans depths.1⟩
  obtain ⟨⟨failure, last, parts⟩ | last, tracked, same, counted⟩ := first 40 sizes.1
  · cases (congrArg Prod.fst same).symm.trans failed
    obtain ⟨depth, unclosed⟩ := counted
    obtain ⟨_, around, rfl⟩ := unclosed _ rfl
    have two : last.draft.depth = 2 :=
      (congrArg (fun answer => answer.2.draft.depth) same).symm.trans depths.2
    have one : around = 1 := by
      rw [two, List.count_append, List.count_replicate_self] at depth
      change 2 = session.draft.depth + (around + 0) at depth
      omega
    subst one
    exact ⟨session, _, last, opened, ⟨_, unindents, above _ unindents⟩, tracked, same, two, again,
      closed⟩
  · cases (congrArg Prod.fst same).symm.trans failed

end ScriptToCpp
