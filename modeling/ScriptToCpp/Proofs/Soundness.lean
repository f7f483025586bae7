import ScriptToCpp.Proofs.Reading
import ScriptToCpp.Proofs.Scope

/-! Every list of tokens that the compiler accepts is a script. What a control state still waits for
is a part of the grammar of its own. Each move puts one token before what the next state waits for,
so that what is accepted from a state is what it waits for. -/
namespace ScriptToCpp

namespace Grammar

/-- Any number of items, each behind an operator. -/
inductive Continued (operator : Kind → Bool) (item : List Kind → Prop) : List Kind → Prop where
  | nil : Continued operator item []
  | cons {sign : Kind} {rest : List Kind} :
      operator sign → Joined operator item rest → Continued operator item (sign :: rest)

theorem Continued.join {operator : Kind → Bool} {item : List Kind → Prop} {word rest : List Kind}
    (first : item word) (continued : Continued operator item rest) :
    Joined operator item (word ++ rest) := by
  cases continued with
  | nil => simpa using Joined.one first
  | cons sign rest => exact .more first sign rest

theorem Continued.behind {operator : Kind → Bool} {item : List Kind → Prop} {sign : Kind}
    {word rest : List Kind} (joins : operator sign) (first : item word)
    (continued : Continued operator item rest) :
    Continued operator item (sign :: (word ++ rest)) :=
  .cons joins (continued.join first)

theorem Continued.expression {factor factors terms : List Kind} (first : Unary factor)
    (more : Continued Kind.isMultiplicative Unary factors)
    (others : Continued Kind.isAdditive Term terms) :
    Expression (factor ++ (factors ++ terms)) := by
  have term : Term (factor ++ factors) := more.join first
  rw [← List.append_assoc]
  exact others.join term

theorem Comparison.of_continued {left right : List Kind} (first : Expression left)
    (more : Continued Kind.isComparison Expression right) (compared : right ≠ []) :
    Comparison (left ++ right) := by
  cases more with
  | nil => contradiction
  | cons sign rest => exact .mk first sign rest

/-- The statements of the innermost block and its end, and so on outwards, up to the end of the
script. -/
def Closing : Nat → List Kind → Prop
  | 0, word => ∃ body, Statements body ∧ word = body ++ [.eof]
  | outer + 1, word => ∃ body breaks rest, Statements body ∧ Breaks breaks ∧ Closing outer rest ∧
      word = body ++ .rBrace :: (breaks ++ rest)

theorem Closing.cons {blocks : Nat} {statement rest : List Kind} (first : Statement statement)
    (closing : Closing blocks rest) : Closing blocks (statement ++ rest) := by
  cases blocks with
  | zero =>
    obtain ⟨body, statements, rfl⟩ := closing
    exact ⟨statement ++ body, .cons first statements, by simp⟩
  | succ outer =>
    obtain ⟨body, breaks, rest, statements, broken, closing, rfl⟩ := closing
    exact ⟨statement ++ body, breaks, rest, .cons first statements, broken, closing, by simp⟩

/-- Empty lines may come first. -/
def Resumed (blocks : Nat) (word : List Kind) : Prop :=
  ∃ breaks rest, (∀ kind ∈ breaks, kind = .newline) ∧ Closing blocks rest ∧ word = breaks ++ rest

/-- A line must end first. -/
def LineEnded (blocks : Nat) (word : List Kind) : Prop :=
  ∃ breaks rest, Breaks breaks ∧ Closing blocks rest ∧ word = breaks ++ rest

theorem Closing.resumed {blocks : Nat} {word : List Kind} (closing : Closing blocks word) :
    Resumed blocks word :=
  ⟨[], word, by simp, closing, rfl⟩

theorem Resumed.skip {blocks : Nat} {word : List Kind} (resumed : Resumed blocks word) :
    Resumed blocks (.newline :: word) := by
  obtain ⟨breaks, rest, newlines, closing, rfl⟩ := resumed
  exact ⟨.newline :: breaks, rest, by simpa using newlines, closing, rfl⟩

theorem Resumed.lineEnded {blocks : Nat} {word : List Kind} (resumed : Resumed blocks word) :
    LineEnded blocks (.newline :: word) := by
  obtain ⟨breaks, rest, newlines, closing, rfl⟩ := resumed
  exact ⟨.newline :: breaks, rest, ⟨by simp, by simpa using newlines⟩, closing, rfl⟩

/-- What follows an expression. A condition goes on with a block, and must have compared before. -/
def Followed (blocks : Nat) : Clause → List Kind → Prop
  | .print, word | .value, word => LineEnded blocks word
  | .condition compared, word => ∃ more rest, Continued Kind.isComparison Expression more ∧
      (compared = false → more ≠ []) ∧ LineEnded (blocks + 1) rest ∧ word = more ++ .lBrace :: rest

/-- What follows a factor. -/
def Operated (blocks : Nat) (clause : Clause) (word : List Kind) : Prop :=
  ∃ factors terms rest, Continued Kind.isMultiplicative Unary factors ∧
    Continued Kind.isAdditive Term terms ∧ Followed blocks clause rest ∧
    word = factors ++ (terms ++ rest)

/-- A factor is due, whose sign may have been read. -/
def Factored (blocks : Nat) (clause : Clause) (signed : Bool) (word : List Kind) : Prop :=
  ∃ factor rest, (if signed then Primary factor else Unary factor) ∧
    Operated blocks clause rest ∧ word = factor ++ rest

theorem Followed.operated {blocks : Nat} {clause : Clause} {word : List Kind}
    (followed : Followed blocks clause word) : Operated blocks clause word :=
  ⟨[], [], word, .nil, .nil, followed, rfl⟩

/-- An expression is due. -/
theorem Factored.expression {blocks : Nat} {clause : Clause} {word : List Kind}
    (factored : Factored blocks clause false word) :
    ∃ value rest, Expression value ∧ Followed blocks clause rest ∧ word = value ++ rest := by
  obtain ⟨factor, _, first, ⟨factors, terms, rest, more, others, followed, rfl⟩, rfl⟩ := factored
  exact ⟨_, rest, more.expression (by simpa using first) others, followed, by simp⟩

end Grammar

namespace Control
open Grammar

/-- What may come, up to the end of the script. -/
def Awaits : Control → List Kind → Prop
  | ⟨.boundary entering, blocks⟩, word => Resumed (if entering then blocks + 1 else blocks) word
  | ⟨.lineEnd entering, blocks⟩, word => LineEnded (if entering then blocks + 1 else blocks) word
  | ⟨.printed, blocks⟩, word =>
      (∃ rest, LineEnded blocks rest ∧ word = .string :: rest) ∨ Factored blocks .print false word
  | ⟨.declared, blocks⟩, word =>
      ∃ rest, Factored blocks .value false rest ∧ word = .identifier :: .eq :: rest
  | ⟨.read, blocks⟩, word => ∃ rest, LineEnded blocks rest ∧ word = .identifier :: rest
  | ⟨.equals _ _, blocks⟩, word =>
      ∃ rest, Factored blocks .value false rest ∧ word = .eq :: rest
  | ⟨.operand clause signed, blocks⟩, word => Factored blocks clause signed word
  | ⟨.operator clause, blocks⟩, word => Operated blocks clause word

variable {names : List String} {token : Token} {control next : Control} {clause : Clause}
  {blocks : Nat} {before after : List Action} {rest : List Kind}

/-- A block stands before whatever follows it. -/
theorem closing_block {word : Kind} (opens : word.opensBlock)
    (awaits : Awaits ⟨.operand (.condition false) false, blocks⟩ rest) :
    Closing blocks (word :: rest) := by
  obtain ⟨left, _, first, followed, rfl⟩ := Factored.expression awaits
  obtain ⟨right, _, more, compared, lineEnded, rfl⟩ := followed
  obtain ⟨inner, _, broken, closing, rfl⟩ := lineEnded
  obtain ⟨body, outer, rest, statements, ended, closing, rfl⟩ := closing
  have condition := Comparison.of_continued first more (compared rfl)
  simpa using closing.cons (.block opens condition broken statements ended)

theorem LineMoves.awaits (moves : LineMoves names token blocks before after next)
    (awaits : next.Awaits rest) : Closing blocks (token.kind :: rest) := by
  cases moves with
  | close kind =>
    obtain ⟨breaks, rest, broken, closing, rfl⟩ := awaits
    exact ⟨[], breaks, rest, .nil, broken, closing, by simp [kind]⟩
  | print kind =>
    rw [kind]
    rcases awaits with ⟨_, ⟨breaks, rest, broken, closing, rfl⟩, rfl⟩ | factored
    · exact closing.cons (.printText broken)
    · obtain ⟨value, _, expression, ⟨breaks, rest, broken, closing, rfl⟩, rfl⟩ :=
        factored.expression
      simpa using closing.cons (.print expression broken)
  | ifBlock kind => exact closing_block (by rw [kind]; rfl) awaits
  | whileBlock kind => exact closing_block (by rw [kind]; rfl) awaits
  | declare kind =>
    rw [kind]
    obtain ⟨_, factored, rfl⟩ := awaits
    obtain ⟨value, _, expression, ⟨breaks, rest, broken, closing, rfl⟩, rfl⟩ := factored.expression
    simpa using closing.cons (.declare expression broken)
  | input kind =>
    rw [kind]
    obtain ⟨_, ⟨breaks, rest, broken, closing, rfl⟩, rfl⟩ := awaits
    exact closing.cons (.input broken)
  | assign kind =>
    rw [kind]
    obtain ⟨_, factored, rfl⟩ := awaits
    obtain ⟨value, _, expression, ⟨breaks, rest, broken, closing, rfl⟩, rfl⟩ := factored.expression
    simpa using closing.cons (.assign expression broken)

theorem OperandMoves.awaits {signed : Bool}
    (moves : OperandMoves names token clause blocks signed before after next)
    (awaits : next.Awaits rest) : Factored blocks clause signed (token.kind :: rest) := by
  cases moves with
  | sign kind =>
    obtain ⟨factor, rest, primary, operated, rfl⟩ := awaits
    exact ⟨token.kind :: factor, rest, .signed kind (by simpa using primary), operated, rfl⟩
  | number kind =>
    refine ⟨[.number], rest, ?_, awaits, by simp [kind]⟩
    cases signed with
    | true => exact .number
    | false => exact .plain .number
  | name kind =>
    refine ⟨[.identifier], rest, ?_, awaits, by simp [kind]⟩
    cases signed with
    | true => exact .identifier
    | false => exact .plain .identifier

theorem OperatorMoves.awaits (moves : OperatorMoves token blocks clause before after next)
    (awaits : next.Awaits rest) : Operated blocks clause (token.kind :: rest) := by
  cases moves with
  | scale kind =>
    obtain ⟨factor, _, first, ⟨factors, terms, rest, more, others, followed, rfl⟩, rfl⟩ := awaits
    refine ⟨token.kind :: (factor ++ factors), terms, rest, ?_, others, followed, by simp⟩
    exact more.behind kind (by simpa using first)
  | add kind =>
    obtain ⟨factor, _, first, ⟨factors, terms, rest, more, others, followed, rfl⟩, rfl⟩ := awaits
    have term : Term (factor ++ factors) := more.join (by simpa using first)
    exact ⟨[], token.kind :: (factor ++ factors ++ terms), rest, .nil, others.behind kind term,
      followed, by simp⟩
  | compare kind =>
    obtain ⟨value, _, expression, ⟨more, rest, continued, _, lineEnded, rfl⟩, rfl⟩ :=
      Factored.expression awaits
    exact Followed.operated ⟨token.kind :: (value ++ more), rest,
      continued.behind kind expression, by simp, lineEnded, by simp⟩
  | endPrint kind =>
    rw [kind]
    exact Followed.operated (Resumed.lineEnded awaits)
  | endValue kind =>
    rw [kind]
    exact Followed.operated (Resumed.lineEnded awaits)
  | endCondition kind =>
    exact Followed.operated ⟨[], rest, .nil, by simp, awaits, by simp [kind]⟩

/-- A move puts its token before what the next state waits for. -/
theorem Moves.awaits (moves : Moves names token control before after next)
    (awaits : next.Awaits rest) : control.Awaits (token.kind :: rest) := by
  cases moves with
  | skip kind =>
    rw [kind]
    exact Resumed.skip awaits
  | line moves => exact (moves.awaits awaits).resumed
  | enter moves => exact (moves.awaits awaits).resumed
  | lineEnd kind =>
    rw [kind]
    exact Resumed.lineEnded awaits
  | printText kind => exact .inl ⟨rest, awaits, by rw [kind]⟩
  | printValue moves => exact .inr (moves.awaits awaits)
  | declared kind =>
    obtain ⟨rest, factored, rfl⟩ := awaits
    exact ⟨rest, factored, by rw [kind]⟩
  | read kind => exact ⟨rest, awaits, by rw [kind]⟩
  | equals kind => exact ⟨rest, awaits, by rw [kind]⟩
  | operand moves => exact moves.awaits awaits
  | operator moves => exact moves.awaits awaits

/-- A new name is due. -/
def awaitsName : Control → Bool
  | ⟨.declared, _⟩ | ⟨.read, _⟩ => true
  | _ => false

/-- Each token is mentioned as the pass over the names does it, and the actions enroll what it
introduces. -/
structure Mentioned (names : List String) (token : Token) (control : Control)
    (actions : List Action) (next : Control) : Prop where
  known : Mention.Scoped names (token.mentions control.awaitsName)
  enrolled : Action.enrolledAll names actions =
    Mention.known names (token.mentions control.awaitsName)
  awaits : next.awaitsName = token.kind.introduces

theorem Mentioned.nothing {actions : List Action} (kind : token.kind ≠ .identifier)
    (same : Action.enrolledAll names actions = names)
    (awaits : next.awaitsName = token.kind.introduces) :
    Mentioned names token control actions next := by
  have silent : token.mentions control.awaitsName = [] := by simp [Token.mentions, kind]
  exact ⟨by simp [silent, Mention.Scoped], by simpa [silent, Mention.known] using same, awaits⟩

theorem Mentioned.use {actions : List Action} (kind : token.kind = .identifier)
    (known : token.text ∈ names) (same : Action.enrolledAll names actions = names)
    (idle : control.awaitsName = false) (awaits : next.awaitsName = false) :
    Mentioned names token control actions next := by
  have used : token.mentions control.awaitsName = [.uses token.text] := by
    simp [Token.mentions, kind, idle]
  refine ⟨?_, ?_, ?_⟩
  · simpa [used, Mention.Scoped] using known
  · simpa [used, Mention.known] using same
  · rw [awaits, kind]; rfl

theorem Mentioned.introduction {actions : List Action} (kind : token.kind = .identifier)
    (enrolled : Action.enrolledAll names actions = names.insert token.text)
    (due : control.awaitsName = true) (awaits : next.awaitsName = false) :
    Mentioned names token control actions next := by
  have introduced : token.mentions control.awaitsName = [.introduces token.text] := by
    simp [Token.mentions, kind, due]
  refine ⟨?_, ?_, ?_⟩
  · simp [introduced, Mention.Scoped]
  · simpa [introduced, Mention.known] using enrolled
  · rw [awaits, kind]; rfl

theorem LineMoves.mentioned (moves : LineMoves names token blocks before after next)
    (idle : control.awaitsName = false) :
    Mentioned names token control (before ++ after) next := by
  cases moves with
  | assign kind known => exact .use kind known rfl idle rfl
  | close kind | print kind | ifBlock kind | whileBlock kind | declare kind | input kind =>
    exact .nothing (by simp [kind]) rfl (by rw [kind]; rfl)

theorem OperandMoves.mentioned {signed : Bool}
    (moves : OperandMoves names token clause blocks signed before after next)
    (idle : control.awaitsName = false) :
    Mentioned names token control (before ++ after) next := by
  cases moves with
  | sign kind =>
    obtain ⟨different, plain⟩ := Kind.operator_plain (.inl kind)
    exact .nothing different rfl plain.symm
  | number kind => exact .nothing (by simp [kind]) rfl (by rw [kind]; rfl)
  | name kind known => exact .use kind known rfl idle rfl

theorem OperatorMoves.mentioned (moves : OperatorMoves token blocks clause before after next) :
    Mentioned names token control (before ++ after) next := by
  cases moves with
  | scale kind =>
    obtain ⟨different, plain⟩ := Kind.operator_plain (.inr (.inl kind))
    exact .nothing different rfl plain.symm
  | add kind =>
    obtain ⟨different, plain⟩ := Kind.operator_plain (.inl kind)
    exact .nothing different rfl plain.symm
  | compare kind =>
    obtain ⟨different, plain⟩ := Kind.operator_plain (.inr (.inr kind))
    exact .nothing different rfl plain.symm
  | endPrint kind | endValue kind | endCondition kind =>
    exact .nothing (by simp [kind]) rfl (by rw [kind]; rfl)

theorem Moves.mentioned (moves : Moves names token control before after next) :
    Mentioned names token control (before ++ after) next := by
  cases moves with
  | line moves => exact moves.mentioned rfl
  | @enter blocks own _ _ moves =>
    have line : Mentioned names token ⟨.boundary true, blocks⟩ (own ++ after) next :=
      moves.mentioned rfl
    exact ⟨line.known, line.enrolled, line.awaits⟩
  | @printValue blocks own _ _ moves =>
    have value : Mentioned names token ⟨.printed, blocks⟩ (own ++ after) next :=
      moves.mentioned rfl
    exact ⟨value.known, value.enrolled, value.awaits⟩
  | declared kind => exact .introduction kind rfl rfl rfl
  | read kind => exact .introduction kind rfl rfl rfl
  | operand moves => exact moves.mentioned rfl
  | operator moves => exact moves.mentioned
  | skip kind | lineEnd kind | printText kind | equals kind =>
    exact .nothing (by simp [kind]) rfl (by rw [kind]; rfl)

end Control

namespace Stage
variable {stage last : Stage} {tokens : List Token} {actions : List Action}

theorem Reads.awaits (read : Reads stage tokens actions last) {rest : List Kind}
    (awaits : last.control.Awaits rest) : stage.control.Awaits (tokens.map Token.kind ++ rest) := by
  induction read with
  | nil => exact awaits
  | cons reaction _ ih => exact (Control.Moves.of_react reaction).awaits (ih awaits)

theorem Accepts.awaits (accepted : stage.Accepts tokens) :
    stage.control.Awaits (tokens.map Token.kind) := by
  obtain ⟨front, last, actions, final, before, rfl, read, reaction⟩ := accepted
  obtain ⟨control, kind, _⟩ := Control.accept_iff.mp reaction
  have ending : final.control.Awaits [.eof] := by
    rw [control]
    exact ⟨[], [.eof], by simp, ⟨[], .nil, rfl⟩, rfl⟩
  simpa [kind] using read.awaits ending

theorem Accepts.program (accepted : start.Accepts tokens) :
    Grammar.Program (tokens.map Token.kind) := by
  obtain ⟨breaks, rest, newlines, ⟨body, statements, rfl⟩, same⟩ := accepted.awaits
  rw [same]
  exact .mk newlines statements

theorem Reads.mentioned (read : Reads stage tokens actions last) :
    Mention.Scoped stage.names (scan stage.control.awaitsName tokens) := by
  induction read with
  | nil => trivial
  | cons reaction _ ih =>
    obtain ⟨known, enrolled, awaits⟩ := (Control.Moves.of_react reaction).mentioned
    simp only [scan, Mention.scoped_append]
    rw [← enrolled, ← awaits]
    exact ⟨known, ih⟩

/-- The names known behind some tokens are those known before, and those that the tokens introduce. -/
theorem Reads.known (read : Reads stage tokens actions last) :
    last.names = Mention.known stage.names (scan stage.control.awaitsName tokens) := by
  induction read with
  | nil => rfl
  | cons reaction _ ih =>
    obtain ⟨_, enrolled, awaits⟩ := (Control.Moves.of_react reaction).mentioned
    rw [ih, scan, Mention.known_append, ← enrolled, ← awaits]

theorem Accepts.declared (accepted : start.Accepts tokens) : DeclaredBeforeUse tokens := by
  obtain ⟨front, last, actions, final, before, rfl, read, reaction⟩ := accepted
  obtain ⟨_, kind, _⟩ := Control.accept_iff.mp reaction
  rw [declaredBeforeUse_iff, scan_concat (by simp [kind])]
  exact read.mentioned

/-- What the compiler accepts is a script. -/
theorem Accepts.isScript (accepted : start.Accepts tokens) : IsScript tokens :=
  ⟨accepted.program, accepted.declared⟩

end Stage
end ScriptToCpp
