/-! The rules of the grammar, as the trace of a compilation names them:

    program    ::= NEWLINE* statement* EOF
    statement  ::= (print | block | declare | assign | input) nl
    comparison ::= expression (operator expression)+
    expression ::= term (("+" | "-") term)*
    term       ::= unary (("*" | "/") unary)*
    unary      ::= ("+" | "-")? primary
    primary    ::= NUMBER | IDENT
    nl         ::= NEWLINE+ -/
namespace ScriptToCpp

/-- The forms of statements. -/
inductive StatementForm where
  | print
  | ifBlock
  | whileBlock
  | declare
  | assign
  | input
  deriving DecidableEq

inductive Rule where
  | program
  | statement (form : StatementForm)
  | comparison
  | expression
  | term
  | unary
  | primary (text : String)
  | newline
  deriving DecidableEq

def StatementForm.name : StatementForm → String
  | print => "PRINT"
  | ifBlock => "IF"
  | whileBlock => "WHILE"
  | declare => "DECLARE"
  | assign => "ASSIGN"
  | input => "INPUT"

namespace Rule

/-- The line of a trace that says that a rule is entered. -/
def line : Rule → String
  | program => "PROGRAM"
  | statement form => "STATEMENT-" ++ form.name
  | comparison => "COMPARISON"
  | expression => "EXPRESSION"
  | term => "TERM"
  | unary => "UNARY"
  | primary text => "PRIMARY (" ++ text ++ ")"
  | newline => "NEWLINE"

/-- A trace: one line for each rule. -/
def trace (rules : List Rule) : String :=
  String.join (rules.map fun rule => rule.line ++ "\n")

end Rule
end ScriptToCpp
