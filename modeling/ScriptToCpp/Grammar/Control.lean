import ScriptToCpp.Cpp.Spelling
import ScriptToCpp.Failure
import ScriptToCpp.Grammar.Rule

/-! The compiler as a machine that looks at one token at a time. What it expects next is a control
state: a mode, and the number of blocks that are open. In a state and at a token it reacts: it may
write something, and then it refuses the token, accepts the script, or moves on to the next token,
writing again once that token is there. -/
namespace ScriptToCpp

/-- What the expression at hand is for. -/
inductive Clause where
  /-- The value to print. -/
  | print
  /-- The value that a name is given. -/
  | value
  /-- A side of a condition, which may end once something was compared. -/
  | condition (compared : Bool)
  deriving DecidableEq

/-- What may come next. -/
inductive Mode where
  /-- A statement, the end of a block or the end of the script, after any number of line breaks. A
  block is entered when its first line is reached. -/
  | boundary (entering : Bool)
  /-- A line break; before the first line of a block, or after a statement. -/
  | lineEnd (entering : Bool)
  /-- What is to be printed: a string or an expression. -/
  | printed
  /-- The name that is declared. -/
  | declared
  /-- The name that is read. -/
  | read
  /-- The equals sign behind a name, whose declaration is written if it is its first one. -/
  | equals (name : String) (first : Bool)
  /-- An operand, and before it a sign if there is none yet. -/
  | operand (clause : Clause) (signed : Bool)
  /-- An operator, or the end of the expression. -/
  | operator (clause : Clause)
  deriving DecidableEq

structure Control where
  mode : Mode
  blocks : Nat
  deriving DecidableEq

/-- Where a script starts. -/
def Control.start : Control := ⟨.boundary false, 0⟩

/-- One thing that is done to what the compiler holds. -/
inductive Action where
  /-- Record that a rule is entered. -/
  | note (rule : Rule)
  /-- Start a line of code, at the indentation that is due. -/
  | startLine (text : String)
  /-- Go on with the line. -/
  | write (text : String)
  /-- Remember that a name is declared. -/
  | enroll (name : String)
  | indent
  | unindent
  deriving DecidableEq

inductive Verdict where
  | accept
  | refuse (cause : SyntaxError.Cause)
  /-- Move on to the next token; once it is there, `after` is done. -/
  | shift (after : List Action) (next : Control)
  deriving DecidableEq

/-- What is done at once, and what becomes of the token. -/
structure Reaction where
  before : List Action
  verdict : Verdict
  deriving DecidableEq

namespace Reaction

/-- Moves on where the token is of the kind that the grammar asks for. -/
def require (kind : Kind) (token : Token) (after : List Action) (next : Control) : Reaction :=
  if token.kind = kind then ⟨[], .shift after next⟩ else ⟨[], .refuse (.expected kind)⟩

/-- Does something else first. -/
def precededBy (actions : List Action) (reaction : Reaction) : Reaction :=
  { reaction with before := actions ++ reaction.before }

end Reaction

namespace Control

/-- The rules entered where an operand starts a factor. -/
def enterUnary : List Action := [.note .unary]

/-- The rules entered where an operand starts a summand. -/
def enterTerm : List Action := .note .term :: enterUnary

/-- The rules entered where an operand starts an expression. -/
def enterExpression : List Action := .note .expression :: enterTerm

/-- The rules entered where an operand starts a condition. -/
def enterComparison : List Action := .note .comparison :: enterExpression

/-- The line must end here. -/
def lineEnd (entering : Bool) (blocks : Nat) (token : Token) : Reaction :=
  (Reaction.require .newline token [] ⟨.boundary entering, blocks⟩).precededBy [.note .newline]

/-- The keyword has been met of a block that runs under a condition. -/
def block (form : StatementForm) (opening : String) (blocks : Nat) : Reaction :=
  ⟨[.note (.statement form)],
    .shift (.startLine opening :: enterComparison) ⟨.operand (.condition false) false, blocks⟩⟩

/-- The first token of a statement says which form it has. -/
def statement (names : List String) (blocks : Nat) (token : Token) : Reaction :=
  match token.kind with
  | .print => ⟨[.note (.statement .print)], .shift [] ⟨.printed, blocks⟩⟩
  | .ifWord => block .ifBlock "if(" blocks
  | .whileWord => block .whileBlock "while(" blocks
  | .declare => ⟨[.note (.statement .declare)], .shift [] ⟨.declared, blocks⟩⟩
  | .input => ⟨[.note (.statement .input)], .shift [] ⟨.read, blocks⟩⟩
  | .identifier =>
    ⟨[.note (.statement .assign)],
      if token.text ∈ names then .shift [] ⟨.equals token.text false, blocks⟩
      else .refuse .undeclaredTarget⟩
  | _ => ⟨[], .refuse .invalidStatement⟩

/-- The line breaks are over. A script must not end inside a block. -/
def line (names : List String) (blocks : Nat) (token : Token) : Reaction :=
  match token.kind, blocks with
  | .eof, 0 => ⟨[], .accept⟩
  | .eof, _ + 1 => ⟨[.unindent], .refuse (.expected .rBrace)⟩
  | .rBrace, outer + 1 =>
    ⟨[.unindent], .shift [.startLine "\x7d\n"] ⟨.lineEnd false, outer⟩⟩
  | _, blocks => statement names blocks token

/-- Line breaks between statements count for nothing. -/
def boundary (names : List String) (entering : Bool) (blocks : Nat) (token : Token) : Reaction :=
  if token.kind = .newline then ⟨[], .shift [] ⟨.boundary entering, blocks⟩⟩
  else if entering then (line names (blocks + 1) token).precededBy [.indent]
  else line names blocks token

/-- Numbers and declared names. -/
def primary (names : List String) (clause : Clause) (blocks : Nat) (token : Token) : Reaction :=
  ⟨[.note (.primary token.text)],
    match token.kind with
    | .number => .shift [.write (Cpp.numberLiteral token.text)] ⟨.operator clause, blocks⟩
    | .identifier =>
      if token.text ∈ names then
        .shift [.write (Cpp.variableName token.text)] ⟨.operator clause, blocks⟩
      else .refuse .undeclaredOperand
    | _ => .refuse .unexpectedOperand⟩

/-- One sign may stand before an operand. -/
def operand (names : List String) (clause : Clause) (signed : Bool) (blocks : Nat)
    (token : Token) : Reaction :=
  if !signed && (token.kind = .plus || token.kind = .minus) then
    ⟨[], .shift [.write token.text] ⟨.operand clause true, blocks⟩⟩
  else primary names clause blocks token

/-- A string is printed as it is, and the value of an expression as a fraction. -/
def printed (names : List String) (blocks : Nat) (token : Token) : Reaction :=
  if token.kind = .string then
    ⟨[], .shift [.startLine ("cout << \"" ++ token.text ++ "\" << endl;\n")]
      ⟨.lineEnd false, blocks⟩⟩
  else
    (operand names .print false blocks token).precededBy
      (.startLine "cout << (double)(" :: enterExpression)

/-- The token does not belong to the expression, which ends before it. -/
def finish (clause : Clause) (blocks : Nat) (token : Token) : Reaction :=
  match clause with
  | .print => (lineEnd false blocks token).precededBy [.write ") << endl;\n"]
  | .value => (lineEnd false blocks token).precededBy [.write ";\n"]
  | .condition false => ⟨[], .refuse .expectedComparison⟩
  | .condition true =>
    .require .lBrace token [.write ") \x7b\n"] ⟨.lineEnd true, blocks⟩

/-- An operator goes on with the expression. A comparison does so only in a condition. -/
def operator (clause : Clause) (blocks : Nat) (token : Token) : Reaction :=
  let goOn (clause : Clause) (enter : List Action) : Reaction :=
    ⟨[], .shift (.write (" " ++ token.text ++ " ") :: enter) ⟨.operand clause false, blocks⟩⟩
  match token.kind, clause with
  | .asterisk, _ | .slash, _ => goOn clause enterUnary
  | .plus, _ | .minus, _ => goOn clause enterTerm
  | kind, .condition _ =>
    if kind.isComparison then goOn (.condition true) enterExpression
    else finish clause blocks token
  | _, _ => finish clause blocks token

/-- What is done in a state at a token, where the given names are declared. -/
def react (names : List String) (control : Control) (token : Token) : Reaction :=
  let blocks := control.blocks
  match control.mode with
  | .boundary entering => boundary names entering blocks token
  | .lineEnd entering => lineEnd entering blocks token
  | .printed => printed names blocks token
  | .declared =>
    .require .identifier token [.enroll token.text]
      ⟨.equals token.text (token.text ∉ names), blocks⟩
  | .read => .require .identifier token [.enroll token.text] ⟨.lineEnd false, blocks⟩
  | .equals name first =>
    let target := (if first then "double " else "") ++ Cpp.variableName name ++ " = "
    .require .eq token (.startLine target :: enterExpression) ⟨.operand .value false, blocks⟩
  | .operand clause signed => operand names clause signed blocks token
  | .operator clause => operator clause blocks token

/-- No state moves on from the end of the script. -/
theorem react_eof (names : List String) (control : Control) {token : Token}
    (last : token.kind = .eof) (after : List Action) (next : Control) :
    (react names control token).verdict ≠ .shift after next := by
  obtain ⟨mode, blocks⟩ := control
  cases mode with
  | boundary entering =>
    cases entering <;> cases blocks <;>
      simp [react, boundary, line, last, Reaction.precededBy]
  | lineEnd => simp [react, lineEnd, Reaction.require, Reaction.precededBy, last]
  | printed => simp [react, printed, operand, primary, Reaction.precededBy, last]
  | declared => simp [react, Reaction.require, last]
  | read => simp [react, Reaction.require, last]
  | equals => simp [react, Reaction.require, last]
  | operand => simp [react, operand, primary, last]
  | operator clause =>
    rcases clause with _ | _ | (_ | _) <;>
      simp [react, operator, finish, lineEnd, Reaction.require, Reaction.precededBy, last,
        Kind.isComparison]

end Control
end ScriptToCpp
