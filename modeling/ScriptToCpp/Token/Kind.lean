/-! The kinds of tokens. Each has a name, which messages and listings use, and a tag, which stands
for it in structured data. -/
namespace ScriptToCpp

inductive Kind where
  | eof
  | newline
  | number
  | identifier
  | string
  | print
  | input
  | declare
  | ifWord
  | thenWord
  | endIf
  | whileWord
  | repeatWord
  | endWhile
  | eq
  | plus
  | minus
  | asterisk
  | slash
  | eqEq
  | notEq
  | lt
  | ltEq
  | gt
  | gtEq
  | lBrace
  | rBrace
  deriving DecidableEq

namespace Kind

def all : List Kind :=
  [eof, newline, number, identifier, string, print, input, declare, ifWord, thenWord, endIf,
    whileWord, repeatWord, endWhile, eq, plus, minus, asterisk, slash, eqEq, notEq, lt, ltEq, gt,
    gtEq, lBrace, rBrace]

theorem mem_all (kind : Kind) : kind ∈ all := by
  cases kind <;> decide

/-- The name of a kind in messages and listings. -/
def name : Kind → String
  | eof => "EOF"
  | newline => "NEWLINE"
  | number => "NUMBER"
  | identifier => "IDENT"
  | string => "STRING"
  | print => "PRINT"
  | input => "INPUT"
  | declare => "DECLARE"
  | ifWord => "IF"
  | thenWord => "THEN"
  | endIf => "ENDIF"
  | whileWord => "WHILE"
  | repeatWord => "REPEAT"
  | endWhile => "ENDWHILE"
  | eq => "EQ"
  | plus => "PLUS"
  | minus => "MINUS"
  | asterisk => "ASTERISK"
  | slash => "SLASH"
  | eqEq => "EQEQ"
  | notEq => "NOTEQ"
  | lt => "LT"
  | ltEq => "LTEQ"
  | gt => "GT"
  | gtEq => "GTEQ"
  | lBrace => "LBRACE"
  | rBrace => "RBRACE"

/-- The tag of a kind in structured data. -/
def tag : Kind → String
  | eof => "Eof"
  | newline => "Newline"
  | number => "Number"
  | identifier => "Identifier"
  | string => "String"
  | print => "Print"
  | input => "Input"
  | declare => "Declare"
  | ifWord => "If"
  | thenWord => "Then"
  | endIf => "EndIf"
  | whileWord => "While"
  | repeatWord => "Repeat"
  | endWhile => "EndWhile"
  | eq => "Eq"
  | plus => "Plus"
  | minus => "Minus"
  | asterisk => "Asterisk"
  | slash => "Slash"
  | eqEq => "EqEq"
  | notEq => "NotEq"
  | lt => "Lt"
  | ltEq => "LtEq"
  | gt => "Gt"
  | gtEq => "GtEq"
  | lBrace => "LBrace"
  | rBrace => "RBrace"

def ofTag? (tag : String) : Option Kind :=
  all.find? fun kind => kind.tag = tag

/-- The reserved words, in lower case only. The language keeps four of them for later use. -/
def keyword? : String → Option Kind
  | "print" => some print
  | "input" => some input
  | "declare" => some declare
  | "if" => some ifWord
  | "then" => some thenWord
  | "endif" => some endIf
  | "while" => some whileWord
  | "repeat" => some repeatWord
  | "endwhile" => some endWhile
  | _ => none

/-- The operators that may join the sides of a condition. -/
def isComparison : Kind → Bool
  | eqEq | notEq | lt | ltEq | gt | gtEq => true
  | _ => false

end Kind
end ScriptToCpp
