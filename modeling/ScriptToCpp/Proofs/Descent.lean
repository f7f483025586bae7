import ScriptToCpp.Proofs.Halting

/-! The grammar by recursive descent: one procedure for each rule, which calls the procedures of the
rules below it. A loop may go round for ever and blocks may be entered for ever, so that procedures
are told how many rounds they may take; and one may try to move on from the end token, behind which
there is nothing. There is no answer where the rounds are used up or the end token is left. -/
namespace ScriptToCpp

/-- A window, what is drafted, and how many tokens have been moved over. -/
structure Parser where
  window : Window
  draft : Draft
  moved : Nat

namespace Parser

/-- The parser behind what a procedure reads, or a failure and the parser that it leaves; if there
is an answer at all. -/
abbrev Parsing := ExceptT (Failure × Parser) Option Parser

def token (parser : Parser) : Token :=
  parser.window.current

def performAll (parser : Parser) (actions : List Action) : Parser :=
  { parser with draft := parser.draft.performAll actions }

def shift (parser : Parser) : Parsing :=
  if parser.token.kind = .eof then .mk none
  else
    match parser.window.shift with
    | (.ok (), window) => pure { parser with window, moved := parser.moved + 1 }
    | (.error fault, window) => throw (.lexical fault, { parser with window })

def refuse (parser : Parser) (cause : SyntaxError.Cause) : Parsing :=
  throw (.grammatical ⟨cause, parser.token⟩, parser)

def eat (parser : Parser) (kind : Kind) : Parsing :=
  if parser.token.kind = kind then parser.shift else parser.refuse (.expected kind)

def skipLineBreaks : Nat → Parser → Parsing
  | 0, _ => .mk none
  | rounds + 1, parser =>
    if parser.token.kind = .newline then do
      let parser ← parser.shift
      parser.skipLineBreaks rounds
    else pure parser

def lineEnd (rounds : Nat) (parser : Parser) : Parsing := do
  let parser ← (parser.performAll [.note .newline]).eat .newline
  parser.skipLineBreaks rounds

def primary (parser : Parser) : Parsing :=
  let token := parser.token
  let parser := parser.performAll [.note (.primary token.text)]
  match token.kind with
  | .number => do
    let parser ← parser.shift
    return parser.performAll [.write (Cpp.numberLiteral token.text)]
  | .identifier =>
    if token.text ∈ parser.draft.names then do
      let parser ← parser.shift
      return parser.performAll [.write (Cpp.variableName token.text)]
    else parser.refuse .undeclaredOperand
  | _ => parser.refuse .unexpectedOperand

def unary (parser : Parser) : Parsing :=
  let parser := parser.performAll [.note .unary]
  if parser.token.kind.isAdditive then do
    let sign := parser.token.text
    let parser ← parser.shift
    (parser.performAll [.write sign]).primary
  else parser.primary

/-- Further items, with an operator before each of them. -/
def further (operator : Kind → Bool) (item : Parser → Parsing) : Nat → Parser → Parsing
  | 0, _ => .mk none
  | rounds + 1, parser =>
    if operator parser.token.kind then do
      let text := parser.token.text
      let parser ← parser.shift
      let parser ← item (parser.performAll [.write (" " ++ text ++ " ")])
      parser.further operator item rounds
    else pure parser

def term (rounds : Nat) (parser : Parser) : Parsing := do
  let parser ← (parser.performAll [.note .term]).unary
  parser.further Kind.isMultiplicative unary rounds

def expression (rounds : Nat) (parser : Parser) : Parsing := do
  let parser ← (parser.performAll [.note .expression]).term rounds
  parser.further Kind.isAdditive (term rounds) rounds

def comparison (rounds : Nat) (parser : Parser) : Parsing := do
  let parser ← (parser.performAll [.note .comparison]).expression rounds
  if parser.token.kind.isComparison then
    parser.further Kind.isComparison (expression rounds) rounds
  else parser.refuse .expectedComparison

def print (rounds : Nat) (parser : Parser) : Parsing := do
  let parser ← (parser.performAll [.note (.statement .print)]).shift
  if parser.token.kind = .string then
    let text := parser.token.text
    let parser ← parser.shift
    return parser.performAll [.startLine ("cout << \"" ++ text ++ "\" << endl;\n")]
  else
    let parser ← (parser.performAll [.startLine "cout << (double)("]).expression rounds
    return parser.performAll [.write ") << endl;\n"]

/-- The equals sign and the value, once it is known what stands before them. -/
def value (rounds : Nat) (parser : Parser) (target : String) : Parsing := do
  let parser ← parser.eat .eq
  let parser ← (parser.performAll [.startLine (target ++ " = ")]).expression rounds
  return parser.performAll [.write ";\n"]

def declare (rounds : Nat) (parser : Parser) : Parsing := do
  let parser ← (parser.performAll [.note (.statement .declare)]).shift
  let name := parser.token.text
  let first : Bool := name ∉ parser.draft.names
  let parser ← parser.eat .identifier
  (parser.performAll [.enroll name]).value rounds
    ((if first then "double " else "") ++ Cpp.variableName name)

def assign (rounds : Nat) (parser : Parser) : Parsing := do
  let name := parser.token.text
  let parser := parser.performAll [.note (.statement .assign)]
  if name ∈ parser.draft.names then
    let parser ← parser.shift
    parser.value rounds (Cpp.variableName name)
  else parser.refuse .undeclaredTarget

def input (parser : Parser) : Parsing := do
  let parser ← (parser.performAll [.note (.statement .input)]).shift
  let name := parser.token.text
  let parser ← parser.eat .identifier
  return parser.performAll [.enroll name]

/-- The start of a block, up to its first line. -/
def blockHead (rounds : Nat) (parser : Parser) (form : StatementForm) (opening : String) :
    Parsing := do
  let parser ← (parser.performAll [.note (.statement form)]).shift
  let parser ← (parser.performAll [.startLine opening]).comparison rounds
  let parser ← parser.eat .lBrace
  (parser.performAll [.write ") \x7b\n"]).lineEnd rounds

/-- The end of a block. -/
def blockEnd (parser : Parser) : Parsing := do
  let parser ← (parser.performAll [.unindent]).eat .rBrace
  return parser.performAll [.startLine "\x7d\n"]

section Statements
variable (rounds : Nat) (body : Parser → Parsing)

/-- A block whose statements are read as it is told. -/
def block (parser : Parser) (form : StatementForm) (opening : String) : Parsing := do
  let parser ← parser.blockHead rounds form opening
  let parser ← body (parser.performAll [.indent])
  parser.blockEnd

/-- A statement, up to the end of its line. The first token says which form it has. -/
def form (parser : Parser) : Parsing :=
  match parser.token.kind with
  | .print => parser.print rounds
  | .ifWord => parser.block rounds body .ifBlock "if("
  | .whileWord => parser.block rounds body .whileBlock "while("
  | .declare => parser.declare rounds
  | .input => parser.input
  | .identifier => parser.assign rounds
  | _ => parser.refuse .invalidStatement

def line (parser : Parser) : Parsing := do
  let parser ← parser.form rounds body
  parser.lineEnd rounds

end Statements

/-- The statements of a block, of which each may hold blocks again. -/
def body : Nat → Parser → Parsing
  | 0, _ => .mk none
  | rounds + 1, parser =>
    if parser.token.kind = .rBrace ∨ parser.token.kind = .eof then pure parser
    else do
      let parser ← parser.line (rounds + 1) (body rounds)
      parser.body rounds

def statement (rounds : Nat) (parser : Parser) : Parsing :=
  parser.line rounds (body rounds)

/-- The statements of a script. -/
def statements : Nat → Parser → Parsing
  | 0, _ => .mk none
  | rounds + 1, parser =>
    if parser.token.kind = .eof then pure parser
    else do
      let parser ← parser.statement (rounds + 1)
      parser.statements rounds

/-- The lines of a script, down to its end. -/
def script (rounds : Nat) (parser : Parser) : Parsing := do
  let parser ← parser.skipLineBreaks rounds
  parser.statements rounds

def program (rounds : Nat) (parser : Parser) : Parsing := do
  let parser ← { parser with draft := parser.draft.opened }.script rounds
  return { parser with draft := parser.draft.closed }

end Parser
end ScriptToCpp
