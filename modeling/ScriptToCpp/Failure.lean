import ScriptToCpp.Files.FileError
import ScriptToCpp.Text.Quoted
import ScriptToCpp.Token.Cursor

/-! Why a script could not be compiled. A cause says what is wrong; its wording is chosen here and
nowhere else. -/
namespace ScriptToCpp

/-- The heading, the details, and on a line of its own the place. -/
def located (heading detail : String) (location : Location) : String :=
  heading ++ ": " ++ detail ++ "\n  --> " ++ toString location.line ++ ":"
    ++ toString location.column

namespace LexError

namespace Cause

/-- The character that stands at the place of the fault. -/
def character : Cause → Char
  | loneBang _ => '!'
  | strayInString c => c
  | danglingPoint _ => '.'
  | unknown c => c

def detail : Cause → String
  | loneBang next => "Expected !=, got !" ++ next.toString
  | strayInString c =>
    "Unwanted character in string: '" ++ String.ofList (Text.escape c) ++ "'"
  | danglingPoint digits => "Invalid number: " ++ digits ++ "."
  | unknown c => "Unknown token: " ++ c.toString

end Cause

def report (detail : String) (location : Location) : String :=
  located "LexingError" detail location

def message (fault : LexError) : String :=
  report fault.cause.detail fault.location

end LexError

/-- What a token fails to be. -/
inductive SyntaxError.Cause where
  /-- Only a token of the given kind may stand here. -/
  | expected (kind : Kind)
  /-- A condition compares, so that an operator must follow its first side. -/
  | expectedComparison
  /-- No statement starts with this token. -/
  | invalidStatement
  /-- Neither a number nor a name. -/
  | unexpectedOperand
  /-- A value is given to a name that is not declared. -/
  | undeclaredTarget
  /-- The value of a name is used that is not declared. -/
  | undeclaredOperand
  deriving DecidableEq

/-- The first token that no valid script has after the tokens before it. -/
structure SyntaxError where
  cause : SyntaxError.Cause
  token : Token
  deriving DecidableEq

namespace SyntaxError

def detail (fault : SyntaxError) : String :=
  let name := fault.token.kind.name
  let text := fault.token.text
  match fault.cause with
  | .expected kind => "Expected " ++ kind.name ++ ", got " ++ name ++ " " ++ Text.quote text
  | .expectedComparison =>
    "Expected comparison operator, got " ++ name ++ " " ++ Text.quote text
  | .invalidStatement => "Invalid syntax at " ++ Text.quote text ++ " (" ++ name ++ ")"
  | .unexpectedOperand => "Unexpected token at " ++ Text.quote text ++ " (" ++ name ++ ")"
  | .undeclaredTarget => "Cannot use variable " ++ text ++ " without declaration"
  | .undeclaredOperand => "Referencing variable before assignment: " ++ text

def report (detail : String) (location : Location) : String :=
  located "SyntaxError" detail location

def message (fault : SyntaxError) : String :=
  report fault.detail fault.token.location

end SyntaxError

inductive Failure where
  | lexical (fault : LexError)
  | grammatical (fault : SyntaxError)
  /-- There is no script to compile. -/
  | notFound (detail : String)
  | file (fault : FileError)
  deriving DecidableEq

def Failure.message : Failure → String
  | lexical fault => fault.message
  | grammatical fault => fault.message
  | notFound detail => "FileNotFoundError: " ++ detail
  | file fault => "IOError: " ++ fault.message

end ScriptToCpp
