import ScriptToCpp.Token

/-! The language of scripts, said without the compiler: a grammar over the kinds of tokens, one
judgment for each rule, and the condition that names are declared before they are used. -/
namespace ScriptToCpp

namespace Kind

/-- Signs, and the operators between the terms of an expression. -/
def isAdditive : Kind → Bool
  | plus | minus => true
  | _ => false

/-- The operators between the factors of a term. -/
def isMultiplicative : Kind → Bool
  | asterisk | slash => true
  | _ => false

/-- The words of a block that runs under a condition. -/
def opensBlock : Kind → Bool
  | ifWord | whileWord => true
  | _ => false

/-- The words that a new name follows. -/
def introduces : Kind → Bool
  | declare | input => true
  | _ => false

/-- An operator is no name, and announces none. -/
theorem operator_plain {kind : Kind}
    (operator : kind.isAdditive ∨ kind.isMultiplicative ∨ kind.isComparison) :
    kind ≠ .identifier ∧ kind.introduces = false := by
  cases kind <;> simp_all [isAdditive, isMultiplicative, isComparison, introduces]

end Kind

namespace Grammar

inductive Primary : List Kind → Prop where
  | number : Primary [.number]
  | identifier : Primary [.identifier]

inductive Unary : List Kind → Prop where
  | plain {word : List Kind} : Primary word → Unary word
  | signed {sign : Kind} {word : List Kind} :
      sign.isAdditive → Primary word → Unary (sign :: word)

/-- An item, and any number of further ones, each behind an operator. -/
inductive Joined (operator : Kind → Bool) (item : List Kind → Prop) : List Kind → Prop where
  | one {word : List Kind} : item word → Joined operator item word
  | more {word rest : List Kind} {sign : Kind} :
      item word → operator sign → Joined operator item rest →
      Joined operator item (word ++ sign :: rest)

def Term : List Kind → Prop := Joined Kind.isMultiplicative Unary

def Expression : List Kind → Prop := Joined Kind.isAdditive Term

inductive Comparison : List Kind → Prop where
  | mk {left right : List Kind} {sign : Kind} :
      Expression left → sign.isComparison → Joined Kind.isComparison Expression right →
      Comparison (left ++ sign :: right)

/-- The end of a line, and any number of empty lines. -/
def Breaks (word : List Kind) : Prop :=
  word ≠ [] ∧ ∀ kind ∈ word, kind = .newline

mutual

inductive Statement : List Kind → Prop where
  | printText {breaks : List Kind} :
      Breaks breaks → Statement (.print :: .string :: breaks)
  | print {value breaks : List Kind} :
      Expression value → Breaks breaks → Statement (.print :: (value ++ breaks))
  | block {word : Kind} {condition inner body outer : List Kind} :
      word.opensBlock → Comparison condition → Breaks inner → Statements body → Breaks outer →
      Statement (word :: (condition ++ .lBrace :: (inner ++ (body ++ .rBrace :: outer))))
  | declare {value breaks : List Kind} :
      Expression value → Breaks breaks →
      Statement (.declare :: .identifier :: .eq :: (value ++ breaks))
  | assign {value breaks : List Kind} :
      Expression value → Breaks breaks → Statement (.identifier :: .eq :: (value ++ breaks))
  | input {breaks : List Kind} :
      Breaks breaks → Statement (.input :: .identifier :: breaks)

inductive Statements : List Kind → Prop where
  | nil : Statements []
  | cons {word rest : List Kind} : Statement word → Statements rest → Statements (word ++ rest)

end

inductive Program : List Kind → Prop where
  | mk {breaks body : List Kind} :
      (∀ kind ∈ breaks, kind = .newline) → Statements body → Program (breaks ++ (body ++ [.eof]))

end Grammar

/-- The last of the tokens is a word that a new name follows. -/
def AwaitsName (tokens : List Token) : Prop :=
  ∃ front word, tokens = front ++ [word] ∧ word.kind.introduces

/-- Among the tokens the name stands directly behind a word that a new name follows. -/
def Introduces (tokens : List Token) (name : String) : Prop :=
  ∃ front word token back, tokens = front ++ word :: token :: back ∧
    word.kind.introduces ∧ token.kind = .identifier ∧ token.text = name

/-- Each identifier is either a new name, or one that some token before it introduces. In a script
the identifiers that are not new are the operands and the targets of assignments. -/
def DeclaredBeforeUse (tokens : List Token) : Prop :=
  ∀ before token after, tokens = before ++ token :: after → token.kind = .identifier →
    ¬ AwaitsName before → Introduces before token.text

/-- The tokens make up a script. -/
def IsScript (tokens : List Token) : Prop :=
  Grammar.Program (tokens.map Token.kind) ∧ DeclaredBeforeUse tokens

/-- Some script starts with the tokens. -/
def Viable (tokens : List Token) : Prop :=
  ∃ rest, IsScript (tokens ++ rest)

end ScriptToCpp
