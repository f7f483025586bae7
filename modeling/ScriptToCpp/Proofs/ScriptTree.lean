import ScriptToCpp.Proofs.Scope
import ScriptToCpp.Proofs.Spelling

/-! Scripts as trees, and which tokens a tree stands for. Trees have neither line breaks nor places
in the text, so that many lists of tokens may spell the same tree. -/
namespace ScriptToCpp.Script

inductive Operand where
  | number (text : String)
  | named (name : String)
  deriving DecidableEq

/-- An operator is a kind of tokens that joins things of some sort. -/
abbrev Operator (joins : Kind → Bool) := { kind : Kind // joins kind }

structure Factor where
  sign : Option (Operator Kind.isAdditive)
  operand : Operand
  deriving DecidableEq

/-- An item, and any number of further ones, each behind an operator. -/
structure Chain (joins : Kind → Bool) (α : Type) where
  first : α
  rest : List (Operator joins × α)
  deriving DecidableEq

abbrev Term := Chain Kind.isMultiplicative Factor

abbrev Expression := Chain Kind.isAdditive Term

/-- A condition compares at least once. -/
structure Condition extends Chain Kind.isComparison Expression where
  compares : rest ≠ []
  deriving DecidableEq

inductive BlockForm where
  | ifBlock
  | whileBlock
  deriving DecidableEq

inductive Statement where
  | printText (text : String)
  | print (value : Expression)
  | block (form : BlockForm) (condition : Condition) (body : List Statement)
  | declare (name : String) (value : Expression)
  | assign (name : String) (value : Expression)
  | input (name : String)

/-- The text of an operator. -/
def Operator.text {joins : Kind → Bool} (operator : Operator joins) : String :=
  operator.val.spelling?.getD ""

/-- The word that opens a block. -/
def BlockForm.kind : BlockForm → Kind
  | ifBlock => .ifWord
  | whileBlock => .whileWord

inductive Operand.Spells : Operand → Token → Prop where
  | number {token : Token} : token.kind = .number → Spells (.number token.text) token
  | named {token : Token} : token.kind = .identifier → Spells (.named token.text) token

structure Operator.Spells {joins : Kind → Bool} (operator : Operator joins) (token : Token) :
    Prop where
  kind : token.kind = operator.val
  text : token.text = operator.text

inductive Factor.Spells : Factor → List Token → Prop where
  | plain {operand : Operand} {token : Token} :
      operand.Spells token → Spells ⟨none, operand⟩ [token]
  | signed {operand : Operand} {sign : Operator Kind.isAdditive} {mark token : Token} :
      sign.Spells mark → operand.Spells token → Spells ⟨some sign, operand⟩ [mark, token]

section
variable {joins : Kind → Bool} {α : Type}

/-- Operators, each with an item behind it. -/
inductive Chain.Continues (item : α → List Token → Prop) :
    List (Operator joins × α) → List Token → Prop where
  | nil : Continues item [] []
  | cons {operator : Operator joins} {x : α} {rest : List (Operator joins × α)} {token : Token}
      {word more : List Token} :
      operator.Spells token → item x word → Continues item rest more →
      Continues item ((operator, x) :: rest) (token :: (word ++ more))

inductive Chain.Spells (item : α → List Token → Prop) : Chain joins α → List Token → Prop where
  | mk {first : α} {rest : List (Operator joins × α)} {word more : List Token} :
      item first word → Chain.Continues item rest more → Spells item ⟨first, rest⟩ (word ++ more)

end

def Term.Spells : Term → List Token → Prop := Chain.Spells Factor.Spells

def Expression.Spells : Expression → List Token → Prop := Chain.Spells Term.Spells

def Condition.Spells (condition : Condition) : List Token → Prop :=
  Chain.Spells Expression.Spells condition.toChain

/-- The end of a line, and any number of empty lines. -/
def Breaks (tokens : List Token) : Prop :=
  Grammar.Breaks (tokens.map Token.kind)

/-- The tokens of a statement that holds no others. -/
inductive Statement.SpellsAlone : Statement → List Token → Prop where
  | printText {word text : Token} {breaks : List Token} :
      word.kind = .print → text.kind = .string → Breaks breaks →
      SpellsAlone (.printText text.text) (word :: text :: breaks)
  | print {word : Token} {value : Expression} {tokens breaks : List Token} :
      word.kind = .print → Expression.Spells value tokens → Breaks breaks →
      SpellsAlone (.print value) (word :: (tokens ++ breaks))
  | declare {word name equals : Token} {value : Expression} {tokens breaks : List Token} :
      word.kind = .declare → name.kind = .identifier → equals.kind = .eq →
      Expression.Spells value tokens → Breaks breaks →
      SpellsAlone (.declare name.text value) (word :: name :: equals :: (tokens ++ breaks))
  | assign {name equals : Token} {value : Expression} {tokens breaks : List Token} :
      name.kind = .identifier → equals.kind = .eq → Expression.Spells value tokens →
      Breaks breaks → SpellsAlone (.assign name.text value) (name :: equals :: (tokens ++ breaks))
  | input {word name : Token} {breaks : List Token} :
      word.kind = .input → name.kind = .identifier → Breaks breaks →
      SpellsAlone (.input name.text) (word :: name :: breaks)

/-- The tokens of statements that follow each other. -/
inductive Statement.Spell : List Statement → List Token → Prop where
  | nil : Spell [] []
  | alone {statement : Statement} {rest : List Statement} {word more : List Token} :
      statement.SpellsAlone word → Spell rest more → Spell (statement :: rest) (word ++ more)
  | block {form : BlockForm} {condition : Condition} {body rest : List Statement}
      {word opening closing : Token} {tokens inner within outer more : List Token} :
      word.kind = form.kind → condition.Spells tokens → opening.kind = .lBrace → Breaks inner →
      Spell body within → closing.kind = .rBrace → Breaks outer → Spell rest more →
      Spell (.block form condition body :: rest)
        (word :: (tokens ++ opening :: (inner ++ (within ++ closing :: (outer ++ more)))))

/-- The tokens of a whole script. -/
inductive Spells : List Statement → List Token → Prop where
  | mk {statements : List Statement} {breaks tokens : List Token} {last : Token} :
      (∀ token ∈ breaks, token.kind = .newline) → Statement.Spell statements tokens →
      last.kind = .eof → Spells statements (breaks ++ (tokens ++ [last]))

/-- The expression that consists of an operand alone. -/
def Expression.single (operand : Operand) : Expression :=
  ⟨⟨⟨none, operand⟩, []⟩, []⟩

theorem Operand.Spells.single {operand : Operand} {token : Token} (spelled : operand.Spells token) :
    Expression.Spells (Expression.single operand) [token] :=
  Chain.Spells.mk (Chain.Spells.mk (Factor.Spells.plain spelled) .nil) .nil

theorem Breaks.single (token : Token) (kind : token.kind = .newline) : Breaks [token] := by
  constructor <;> simp [kind]

/-- The kind of the token that a statement starts with. -/
def Statement.word : Statement → Kind
  | .printText _ | .print _ => .print
  | .block form _ _ => form.kind
  | .declare _ _ => .declare
  | .assign _ _ => .identifier
  | .input _ => .input

theorem Statement.word_ne_newline (statement : Statement) : statement.word ≠ .newline := by
  cases statement with
  | block form => cases form <;> nofun
  | _ => nofun

theorem Statement.SpellsAlone.starts {x : Statement} {tokens : List Token}
    (spelled : x.SpellsAlone tokens) :
    ∃ token rest, tokens = token :: rest ∧ token.kind = x.word := by
  cases spelled <;> exact ⟨_, _, rfl, ‹_›⟩

theorem Statement.Spell.starts {statements : List Statement} {tokens : List Token}
    (spelled : Statement.Spell statements tokens) :
    statements = [] ∧ tokens = [] ∨ ∃ first others token rest, statements = first :: others ∧
      tokens = token :: rest ∧ token.kind = Statement.word first := by
  cases spelled with
  | nil => exact .inl ⟨rfl, rfl⟩
  | alone alone _ =>
    obtain ⟨token, rest, rfl, kind⟩ := alone.starts
    exact .inr ⟨_, _, token, _, rfl, rfl, kind⟩
  | block kind => exact .inr ⟨_, _, _, _, rfl, rfl, kind⟩

def Operand.mentions : Operand → List Mention
  | number _ => []
  | named name => [.uses name]

def Factor.mentions (factor : Factor) : List Mention :=
  factor.operand.mentions

def Chain.mentions {joins : Kind → Bool} {α : Type} (item : α → List Mention)
    (chain : Chain joins α) : List Mention :=
  item chain.first ++ chain.rest.flatMap fun (_, x) => item x

def Term.mentions : Term → List Mention := Chain.mentions Factor.mentions

def Expression.mentions : Expression → List Mention := Chain.mentions Term.mentions

def Condition.mentions (condition : Condition) : List Mention :=
  Chain.mentions Expression.mentions condition.toChain

mutual

/-- The identifiers of a statement, in the order in which they are written. -/
def Statement.mentions : Statement → List Mention
  | .printText _ => []
  | .print value => Expression.mentions value
  | .block _ condition body => condition.mentions ++ Statement.mentionsAll body
  | .declare name value => .introduces name :: Expression.mentions value
  | .assign name value => .uses name :: Expression.mentions value
  | .input name => [.introduces name]

def Statement.mentionsAll : List Statement → List Mention
  | [] => []
  | statement :: rest => statement.mentions ++ Statement.mentionsAll rest

end

/-- Tokens that spell something mention what it mentions, whatever comes behind them. -/
def Mentioned {α : Type} (spells : α → List Token → Prop) (names : α → List Mention) : Prop :=
  ∀ x tokens, spells x tokens → ∀ rest, scan false (tokens ++ rest) = names x ++ scan false rest

/-- A token that is no name, and that announces none, is passed over. -/
theorem scan_skip {token : Token} {rest : List Token}
    (plain : token.kind ≠ .identifier ∧ token.kind.introduces = false) :
    scan false (token :: rest) = scan false rest := by
  simp [scan, Token.mentions, plain]

theorem scan_word {token : Token} {kind : Kind} {rest : List Token} (same : token.kind = kind)
    (plain : kind ≠ .identifier ∧ kind.introduces = false) :
    scan false (token :: rest) = scan false rest :=
  scan_skip (by rw [same]; exact plain)

theorem scan_used {token : Token} {rest : List Token} (kind : token.kind = .identifier) :
    scan false (token :: rest) = .uses token.text :: scan false rest := by
  simp [scan, Token.mentions, kind, Kind.introduces]

theorem scan_introduced {word name : Token} {rest : List Token}
    (introduces : word.kind.introduces = true) (kind : name.kind = .identifier) :
    scan false (word :: name :: rest) = .introduces name.text :: scan false rest := by
  have different : word.kind ≠ .identifier := by
    intro same
    simp [same, Kind.introduces] at introduces
  simp only [scan, Token.mentions, different, introduces, kind, if_true, if_false, List.nil_append]
  rfl

theorem scan_breaks {breaks rest : List Token}
    (newlines : ∀ token ∈ breaks, token.kind = .newline) :
    scan false (breaks ++ rest) = scan false rest := by
  induction breaks with
  | nil => rfl
  | cons token breaks ih =>
    simp only [List.mem_cons, forall_eq_or_imp] at newlines
    rw [List.cons_append, scan_word newlines.1 (by decide), ih newlines.2]

theorem Breaks.newlines {breaks : List Token} (broken : Breaks breaks) :
    ∀ token ∈ breaks, token.kind = .newline := by
  intro token member
  exact broken.2 _ (List.mem_map_of_mem member)

theorem Operand.mentioned {operand : Operand} {token : Token} (spelled : operand.Spells token)
    (rest : List Token) :
    scan false (token :: rest) =
      operand.mentions ++ scan false rest := by
  cases spelled with
  | number kind => exact scan_word kind (by decide)
  | named kind => exact scan_used kind

theorem Factor.mentioned : Mentioned Factor.Spells Factor.mentions := by
  intro factor tokens spelled rest
  cases spelled with
  | plain operand => exact Operand.mentioned operand rest
  | @signed _ sign mark token marked operand =>
    rw [List.cons_append, scan_skip (by
      rw [marked.kind]
      exact Kind.operator_plain (.inl sign.property))]
    exact Operand.mentioned operand rest

theorem Chain.mentioned {joins : Kind → Bool} {α : Type} {spells : α → List Token → Prop}
    {names : α → List Mention}
    (plain : ∀ kind, joins kind → kind ≠ .identifier ∧ kind.introduces = false)
    (item : Mentioned spells names) :
    Mentioned (Chain.Spells spells : Chain joins α → List Token → Prop) (Chain.mentions names) := by
  intro chain tokens spelled rest
  cases spelled with
  | mk first continues =>
    rw [List.append_assoc, item _ _ first, Chain.mentions, List.append_assoc]
    congr 1
    induction continues with
    | nil => rfl
    | @cons operator x others token word more marked spelled _ ih =>
      rw [List.cons_append, scan_skip (by rw [marked.kind]; exact plain _ operator.property),
        List.append_assoc, item _ _ spelled, ih, List.flatMap_cons, List.append_assoc]

theorem Term.mentioned : Mentioned Term.Spells Term.mentions :=
  Chain.mentioned (fun _ joins => Kind.operator_plain (.inr (.inl joins))) Factor.mentioned

theorem Expression.mentioned : Mentioned Expression.Spells Expression.mentions :=
  Chain.mentioned (fun _ joins => Kind.operator_plain (.inl joins)) Term.mentioned

theorem Condition.mentioned : Mentioned Condition.Spells Condition.mentions :=
  fun condition =>
    Chain.mentioned (fun _ joins => Kind.operator_plain (.inr (.inr joins))) Expression.mentioned
      condition.toChain

theorem Statement.mentioned_alone : Mentioned Statement.SpellsAlone Statement.mentions := by
  intro statement tokens spelled rest
  cases spelled with
  | printText word text broken =>
    rw [List.cons_append, List.cons_append, scan_word word (by decide),
      scan_word text (by decide), scan_breaks broken.newlines]
    rfl
  | print word value broken =>
    rw [List.cons_append, scan_word word (by decide), List.append_assoc,
      Expression.mentioned _ _ value, scan_breaks broken.newlines]
    rfl
  | declare word name equals value broken =>
    rw [List.cons_append, List.cons_append, List.cons_append,
      scan_introduced (by rw [word]; rfl) name, scan_word equals (by decide),
      List.append_assoc, Expression.mentioned _ _ value, scan_breaks broken.newlines]
    rfl
  | assign name equals value broken =>
    rw [List.cons_append, List.cons_append, scan_used name, scan_word equals (by decide),
      List.append_assoc, Expression.mentioned _ _ value, scan_breaks broken.newlines]
    rfl
  | input word name broken =>
    rw [List.cons_append, List.cons_append, scan_introduced (by rw [word]; rfl) name,
      scan_breaks broken.newlines]
    rfl

theorem Statement.mentioned : Mentioned Statement.Spell Statement.mentionsAll := by
  intro statements tokens spelled
  induction spelled with
  | nil => exact fun _ => rfl
  | alone alone _ ih =>
    intro rest
    rw [List.append_assoc, Statement.mentioned_alone _ _ alone, ih, mentionsAll,
      List.append_assoc]
  | @block form _ _ _ word _ _ _ _ _ _ _ opens condition opening inner _ closing outer _ ihBody
      ih =>
    intro rest
    have plain : form.kind ≠ .identifier ∧ form.kind.introduces = false := by
      cases form <;> decide
    simp only [List.cons_append, List.append_assoc]
    rw [scan_word opens plain, Condition.mentioned _ _ condition, scan_word opening (by decide),
      scan_breaks inner.newlines, ihBody, scan_word closing (by decide),
      scan_breaks outer.newlines, ih, mentionsAll, mentions]
    simp only [List.append_assoc]

/-- A script mentions its identifiers as the pass over its tokens meets them: new names behind the
words that introduce them, and all others as operands and targets of assignments. -/
theorem Spells.scan {statements : List Statement} {tokens : List Token}
    (spelled : Spells statements tokens) :
    ScriptToCpp.scan false tokens = Statement.mentionsAll statements := by
  cases spelled with
  | mk newlines spelled last =>
    rw [scan_breaks newlines, Statement.mentioned _ _ spelled, scan_word last (by decide)]
    exact List.append_nil _

end ScriptToCpp.Script
