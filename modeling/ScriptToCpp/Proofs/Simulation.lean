import ScriptToCpp.Proofs.Reading
import ScriptToCpp.Proofs.ScriptTree

/-! The compiler reads the tokens of every tree whose names are declared before they are used, and
the actions on the way are those of the tree. -/
namespace ScriptToCpp.Script
open Stage (Reads)

def Operand.actions : Operand → List Action
  | number text => [.note (.primary text), .write (Cpp.numberLiteral text)]
  | named name => [.note (.primary name), .write (Cpp.variableName name)]

/-- What is done for a factor, once it is entered. -/
def Factor.actions (factor : Factor) : List Action :=
  match factor.sign with
  | none => factor.operand.actions
  | some sign => .write sign.text :: factor.operand.actions

/-- What is done for a chain, once its first item is entered. -/
def Chain.actions {joins : Kind → Bool} {α : Type} (enter : List Action) (item : α → List Action)
    (chain : Chain joins α) : List Action :=
  item chain.first ++ chain.rest.flatMap fun (operator, x) =>
    .write (" " ++ operator.text ++ " ") :: (enter ++ item x)

def Term.actions : Term → List Action := Chain.actions Control.enterUnary Factor.actions

def Expression.actions : Expression → List Action := Chain.actions Control.enterTerm Term.actions

def Condition.actions (condition : Condition) : List Action :=
  Chain.actions Control.enterExpression Expression.actions condition.toChain

def BlockForm.form : BlockForm → StatementForm
  | ifBlock => .ifBlock
  | whileBlock => .whileBlock

def BlockForm.opening : BlockForm → String
  | ifBlock => "if("
  | whileBlock => "while("

mutual

/-- What is done for a statement, where some names are declared. -/
def Statement.actions (names : List String) : Statement → List Action
  | .printText text =>
    [.note (.statement .print), .startLine ("cout << \"" ++ text ++ "\" << endl;\n"),
      .note .newline]
  | .print value =>
    .note (.statement .print) :: .startLine "cout << (double)(" ::
      (Control.enterExpression ++ Expression.actions value ++
        [.write ") << endl;\n", .note .newline])
  | .block form condition body =>
    .note (.statement form.form) :: .startLine form.opening ::
      (Control.enterComparison ++ condition.actions ++
        .write ") \x7b\n" :: .note .newline :: .indent ::
          (Statement.actionsAll names body ++ [.unindent, .startLine "\x7d\n", .note .newline]))
  | .declare name value =>
    .note (.statement .declare) :: .enroll name ::
      .startLine ((if name ∈ names then "" else "double ") ++ Cpp.variableName name ++ " = ") ::
      (Control.enterExpression ++ Expression.actions value ++ [.write ";\n", .note .newline])
  | .assign name value =>
    .note (.statement .assign) :: .startLine (Cpp.variableName name ++ " = ") ::
      (Control.enterExpression ++ Expression.actions value ++ [.write ";\n", .note .newline])
  | .input name => [.note (.statement .input), .enroll name, .note .newline]

def Statement.actionsAll (names : List String) : List Statement → List Action
  | [] => []
  | statement :: rest =>
    statement.actions names ++ Statement.actionsAll (Mention.known names statement.mentions) rest

end

/-- Expressions use names and introduce none. -/
def Silent (mentions : List Mention) : Prop :=
  ∀ names, Mention.known names mentions = names

theorem Operand.silent (operand : Operand) : Silent operand.mentions := by
  intro names
  cases operand <;> rfl

theorem Chain.silent {joins : Kind → Bool} {α : Type} {item : α → List Mention}
    (silent : ∀ x, Silent (item x)) (chain : Chain joins α) : Silent (chain.mentions item) := by
  obtain ⟨first, rest⟩ := chain
  intro names
  rw [Chain.mentions, Mention.known_append, silent first]
  induction rest with
  | nil => rfl
  | cons pair rest ih => rw [List.flatMap_cons, Mention.known_append, silent pair.2, ih]

theorem Term.silent (term : Term) : Silent (Term.mentions term) :=
  Chain.silent (fun factor => factor.operand.silent) term

theorem Expression.silent (value : Expression) : Silent (Expression.mentions value) :=
  Chain.silent Term.silent value

theorem Condition.silent (condition : Condition) : Silent condition.mentions :=
  Chain.silent Expression.silent condition.toChain

/-- The tokens of a phrase are read where an operand is due, and an operator is due behind them. -/
def Runs {α : Type} (spells : α → List Token → Prop) (mentions : α → List Mention)
    (actions : α → List Action) : Prop :=
  ∀ x tokens names clause blocks, spells x tokens → Mention.Scoped names (mentions x) →
    Reads ⟨names, ⟨.operand clause false, blocks⟩⟩ tokens (actions x)
      ⟨names, ⟨.operator clause, blocks⟩⟩

theorem Operand.runs {operand : Operand} {token : Token} {names : List String} {clause : Clause}
    {signed : Bool} {blocks : Nat} (spelled : operand.Spells token)
    (declared : Mention.Scoped names operand.mentions) :
    Reads ⟨names, ⟨.operand clause signed, blocks⟩⟩ [token] operand.actions
      ⟨names, ⟨.operator clause, blocks⟩⟩ := by
  cases spelled with
  | number kind => exact .single (.operand (.number kind))
  | named kind => exact .single (.operand (.name kind declared.1))

theorem Factor.runs : Runs Factor.Spells Factor.mentions Factor.actions := by
  intro factor tokens names clause blocks spelled declared
  cases spelled with
  | plain operand => exact Operand.runs operand declared
  | @signed _ sign mark _ marked operand =>
    have moves : Control.Moves names mark ⟨.operand clause false, blocks⟩ [] [.write mark.text]
        ⟨.operand clause true, blocks⟩ :=
      .operand (.sign (by rw [marked.kind]; exact sign.property))
    have read := (Reads.single moves).append (Operand.runs operand declared)
    rw [marked.text] at read
    exact read

section
variable {joins : Kind → Bool} {α : Type} {spells : α → List Token → Prop}
  {mentions : α → List Mention} {actions : α → List Action} {enter : List Action}
  {names : List String} {clause : Clause} {blocks : Nat}

/-- Each operator and the item behind it lead back to where an operator is due. -/
theorem Chain.continues_runs
    (moves : ∀ token, joins token.kind → Control.OperatorMoves token blocks clause []
      (.write (" " ++ token.text ++ " ") :: enter) ⟨.operand clause false, blocks⟩)
    (quiet : ∀ names, Action.enrolledAll names enter = names)
    (silent : ∀ x, Silent (mentions x)) (item : Runs spells mentions actions)
    {rest : List (Operator joins × α)} {more : List Token}
    (continues : Chain.Continues spells rest more)
    (declared : Mention.Scoped names (rest.flatMap fun (_, x) => mentions x)) :
    Reads ⟨names, ⟨.operator clause, blocks⟩⟩ more
      (rest.flatMap fun (operator, x) =>
        .write (" " ++ operator.text ++ " ") :: (enter ++ actions x))
      ⟨names, ⟨.operator clause, blocks⟩⟩ := by
  induction continues with
  | nil => exact .nil _
  | @cons operator x rest token word more marked spelled _ ih =>
    rw [List.flatMap_cons, Mention.scoped_append, silent x] at declared
    have moved : Control.Moves names token ⟨.operator clause, blocks⟩ []
        (.write (" " ++ token.text ++ " ") :: enter) ⟨.operand clause false, blocks⟩ :=
      .operator (moves token (by rw [marked.kind]; exact operator.property))
    rw [marked.text] at moved
    have read := ((Reads.quiet moved (quiet names)).append
      (item x word names clause blocks spelled declared.1)).append (ih declared.2)
    simpa only [List.flatMap_cons, List.cons_append, List.nil_append, List.append_assoc] using read

theorem Chain.runs
    (moves : ∀ token clause blocks, joins token.kind → Control.OperatorMoves token blocks clause []
      (.write (" " ++ token.text ++ " ") :: enter) ⟨.operand clause false, blocks⟩)
    (quiet : ∀ names, Action.enrolledAll names enter = names)
    (silent : ∀ x, Silent (mentions x)) (item : Runs spells mentions actions) :
    Runs (Chain.Spells spells : Chain joins α → List Token → Prop) (Chain.mentions mentions)
      (Chain.actions enter actions) := by
  intro chain tokens names clause blocks spelled declared
  cases spelled with
  | mk first continues =>
    rw [Chain.mentions, Mention.scoped_append, silent] at declared
    exact (item _ _ names clause blocks first declared.1).append
      (Chain.continues_runs (fun token => moves token clause blocks) quiet silent item continues
        declared.2)

end

theorem Term.runs : Runs Term.Spells Term.mentions Term.actions :=
  Chain.runs (fun _ _ _ joins => .scale joins) (fun _ => rfl) (fun factor => factor.operand.silent)
    Factor.runs

theorem Expression.runs : Runs Expression.Spells Expression.mentions Expression.actions :=
  Chain.runs (fun _ _ _ joins => .add joins) (fun _ => rfl) Term.silent Term.runs

/-- A condition has compared when it is over. -/
theorem Condition.runs {condition : Condition} {tokens : List Token} {names : List String}
    {blocks : Nat} (spelled : condition.Spells tokens)
    (declared : Mention.Scoped names condition.mentions) :
    Reads ⟨names, ⟨.operand (.condition false) false, blocks⟩⟩ tokens condition.actions
      ⟨names, ⟨.operator (.condition true), blocks⟩⟩ := by
  obtain ⟨⟨first, rest⟩, compares⟩ := condition
  cases spelled with
  | mk left continues =>
    cases continues with
    | nil => exact absurd rfl compares
    | @cons operator x rest token word more marked right continues =>
      rw [Condition.mentions, Chain.mentions, List.flatMap_cons, Mention.scoped_append,
        Mention.scoped_append, Expression.silent, Expression.silent] at declared
      have moved : Control.Moves names token ⟨.operator (.condition false), blocks⟩ []
          (.write (" " ++ token.text ++ " ") :: Control.enterExpression)
          ⟨.operand (.condition true) false, blocks⟩ :=
        .operator (.compare (by rw [marked.kind]; exact operator.property))
      rw [marked.text] at moved
      have again : ∀ token : Token, token.kind.isComparison → Control.OperatorMoves token blocks
          (.condition true) [] (.write (" " ++ token.text ++ " ") :: Control.enterExpression)
          ⟨.operand (.condition true) false, blocks⟩ := fun _ joins => .compare joins
      have others := Chain.continues_runs again (fun _ => rfl) Expression.silent Expression.runs
        continues declared.2.2
      have read := ((Expression.runs first _ names (.condition false) blocks left declared.1).append
        (Reads.quiet moved rfl)).append
          ((Expression.runs x word names (.condition true) blocks right declared.2.1).append others)
      simpa only [Condition.actions, Chain.actions, List.flatMap_cons, List.cons_append,
        List.nil_append, List.append_assoc] using read

theorem newlines_run {breaks : List Token} {names : List String} {entering : Bool} {blocks : Nat}
    (newlines : ∀ token ∈ breaks, token.kind = .newline) :
    Reads ⟨names, ⟨.boundary entering, blocks⟩⟩ breaks []
      ⟨names, ⟨.boundary entering, blocks⟩⟩ := by
  induction breaks with
  | nil => exact .nil _
  | cons token rest ih =>
    have first : Control.Moves names token ⟨.boundary entering, blocks⟩ [] []
        ⟨.boundary entering, blocks⟩ := .skip (newlines token (by simp))
    exact (Reads.quiet first rfl).append (ih fun token member => newlines token (by simp [member]))

/-- A line ends with the first line break. The others count for nothing. -/
theorem Breaks.runs {breaks : List Token} {names : List String} {control : Control}
    {entering : Bool} {blocks : Nat} {before : List Action} (broken : Breaks breaks)
    (moves : ∀ token : Token, token.kind = .newline →
      control.Moves names token before [] ⟨.boundary entering, blocks⟩)
    (quiet : Action.enrolledAll names before = names) :
    Reads ⟨names, control⟩ breaks before ⟨names, ⟨.boundary entering, blocks⟩⟩ := by
  cases breaks with
  | nil => exact absurd rfl broken.1
  | cons token rest =>
    have newlines := broken.newlines
    have first := Reads.quiet (moves token (newlines token (by simp))) (by simpa using quiet)
    simpa using first.append (newlines_run fun token member => newlines token (by simp [member]))

theorem Breaks.runs_lineEnd {breaks : List Token} {names : List String} {entering : Bool}
    {blocks : Nat} (broken : Breaks breaks) :
    Reads ⟨names, ⟨.lineEnd entering, blocks⟩⟩ breaks [.note .newline]
      ⟨names, ⟨.boundary entering, blocks⟩⟩ :=
  broken.runs (fun _ kind => .lineEnd kind) rfl

/-- The value that a name is given, and the end of its line. -/
theorem Expression.runs_value {value : Expression} {tokens breaks : List Token}
    {names : List String} {blocks : Nat} (spelled : Expression.Spells value tokens)
    (declared : Mention.Scoped names (Expression.mentions value)) (broken : Breaks breaks) :
    Reads ⟨names, ⟨.operand .value false, blocks⟩⟩ (tokens ++ breaks)
      (Expression.actions value ++ [.write ";\n", .note .newline])
      ⟨names, ⟨.boundary false, blocks⟩⟩ :=
  (Expression.runs value tokens names .value blocks spelled declared).append
    (broken.runs (fun _ kind => .operator (.endValue kind)) rfl)

/-- What is read where an operand is due can be printed. -/
theorem reads_printed {tokens : List Token} {names : List String} {blocks : Nat} {last : Stage}
    {actions : List Action} (some : tokens ≠ [])
    (read : Reads ⟨names, ⟨.operand .print false, blocks⟩⟩ tokens actions last) :
    Reads ⟨names, ⟨.printed, blocks⟩⟩ tokens
      (.startLine "cout << (double)(" :: (Control.enterExpression ++ actions)) last := by
  cases read with
  | nil => contradiction
  | cons reaction rest =>
    cases Control.Moves.of_react reaction with
    | operand moves =>
      have moved : Stage.react ⟨names, ⟨.printed, blocks⟩⟩ _ = _ :=
        (Control.Moves.printValue moves).react
      simpa only [List.cons_append, List.append_assoc] using Reads.cons moved rest

/-- What is read where a line is due can be the first line of a block. -/
theorem reads_entering {token : Token} {tokens : List Token} {names : List String} {blocks : Nat}
    {last : Stage} {actions : List Action} (line : token.kind ≠ .newline)
    (read : Reads ⟨names, ⟨.boundary false, blocks + 1⟩⟩ (token :: tokens) actions last) :
    Reads ⟨names, ⟨.boundary true, blocks⟩⟩ (token :: tokens) (.indent :: actions) last := by
  cases read with
  | cons reaction rest =>
    cases Control.Moves.of_react reaction with
    | skip kind => contradiction
    | line moves =>
      have moved : Stage.react ⟨names, ⟨.boundary true, blocks⟩⟩ token = _ :=
        (Control.Moves.enter moves).react
      exact Reads.cons moved rest

theorem Expression.nonempty {value : Expression} {tokens : List Token}
    (spelled : Expression.Spells value tokens) : tokens ≠ [] := by
  cases spelled with
  | mk term _ =>
    cases term with
    | mk factor _ => cases factor <;> simp

theorem Statement.runs_alone {statement : Statement} {tokens : List Token} {names : List String}
    {blocks : Nat} (spelled : statement.SpellsAlone tokens)
    (declared : Mention.Scoped names statement.mentions) :
    Reads ⟨names, ⟨.boundary false, blocks⟩⟩ tokens (statement.actions names)
      ⟨Mention.known names statement.mentions, ⟨.boundary false, blocks⟩⟩ := by
  cases spelled with
  | @printText word text _ print string broken =>
    have start : Reads ⟨names, ⟨.boundary false, blocks⟩⟩ [word] [.note (.statement .print)]
        ⟨names, ⟨.printed, blocks⟩⟩ := .quiet (.line (.print print)) rfl
    have shown : Reads ⟨names, ⟨.printed, blocks⟩⟩ [text]
        [.startLine ("cout << \"" ++ text.text ++ "\" << endl;\n")]
        ⟨names, ⟨.lineEnd false, blocks⟩⟩ := .quiet (.printText string) rfl
    exact (start.append shown).append broken.runs_lineEnd
  | @print word value _ _ print spelled broken =>
    have start : Reads ⟨names, ⟨.boundary false, blocks⟩⟩ [word] [.note (.statement .print)]
        ⟨names, ⟨.printed, blocks⟩⟩ := .quiet (.line (.print print)) rfl
    have shown := reads_printed (Expression.nonempty spelled)
      (Expression.runs value _ names .print blocks spelled declared)
    have read := (start.append shown).append
      (broken.runs (fun _ kind => .operator (.endPrint kind)) rfl)
    rw [mentions, Expression.silent]
    simpa only [actions, List.cons_append, List.nil_append, List.append_assoc] using read
  | @declare word name equals value _ _ declare identifier eq spelled broken =>
    have start : Reads ⟨names, ⟨.boundary false, blocks⟩⟩ [word] [.note (.statement .declare)]
        ⟨names, ⟨.declared, blocks⟩⟩ := .quiet (.line (.declare declare)) rfl
    have named : Reads ⟨names, ⟨.declared, blocks⟩⟩ [name] [.enroll name.text]
        ⟨names.insert name.text, ⟨.equals name.text (name.text ∉ names), blocks⟩⟩ :=
      .single (.declared identifier)
    have target : (if decide (name.text ∉ names) then "double " else "") =
        if name.text ∈ names then "" else "double " := by
      by_cases known : name.text ∈ names <;> simp [known]
    have given : Reads ⟨names.insert name.text, ⟨.equals name.text (name.text ∉ names), blocks⟩⟩
        [equals]
        (.startLine ((if name.text ∈ names then "" else "double ") ++ Cpp.variableName name.text ++
          " = ") :: Control.enterExpression)
        ⟨names.insert name.text, ⟨.operand .value false, blocks⟩⟩ := by
      rw [← target]
      exact .quiet (.equals eq) rfl
    have read := ((start.append named).append given).append
      (Expression.runs_value spelled declared broken)
    rw [mentions, Mention.known, Expression.silent]
    simpa only [actions, List.cons_append, List.nil_append, List.append_assoc] using read
  | @assign name equals value _ _ identifier eq spelled broken =>
    have start : Reads ⟨names, ⟨.boundary false, blocks⟩⟩ [name] [.note (.statement .assign)]
        ⟨names, ⟨.equals name.text false, blocks⟩⟩ :=
      .quiet (.line (.assign identifier declared.1)) rfl
    have given : Reads ⟨names, ⟨.equals name.text false, blocks⟩⟩ [equals]
        (.startLine (Cpp.variableName name.text ++ " = ") :: Control.enterExpression)
        ⟨names, ⟨.operand .value false, blocks⟩⟩ := by
      have moved : Reads ⟨names, ⟨.equals name.text false, blocks⟩⟩ [equals] _ _ :=
        .quiet (.equals eq) rfl
      simpa only [Bool.false_eq_true, if_false, String.empty_append, List.nil_append] using moved
    have read := (start.append given).append (Expression.runs_value spelled declared.2 broken)
    rw [mentions, Mention.known, Expression.silent]
    simpa only [actions, List.cons_append, List.nil_append, List.append_assoc] using read
  | @input word name _ input identifier broken =>
    have start : Reads ⟨names, ⟨.boundary false, blocks⟩⟩ [word] [.note (.statement .input)]
        ⟨names, ⟨.read, blocks⟩⟩ := .quiet (.line (.input input)) rfl
    have named : Reads ⟨names, ⟨.read, blocks⟩⟩ [name] [.enroll name.text]
        ⟨names.insert name.text, ⟨.lineEnd false, blocks⟩⟩ := .single (.read identifier)
    exact (start.append named).append broken.runs_lineEnd

/-- The lines of a block and its end start with no line break. -/
theorem Statement.Spell.line {statements : List Statement} {tokens : List Token} {closing : Token}
    (spelled : Statement.Spell statements tokens) (rBrace : closing.kind = .rBrace) :
    ∃ token rest, tokens ++ [closing] = token :: rest ∧ token.kind ≠ .newline := by
  rcases spelled.starts with ⟨_, rfl⟩ | ⟨first, _, token, rest, _, rfl, kind⟩
  · exact ⟨closing, [], rfl, by simp [rBrace]⟩
  · exact ⟨token, rest ++ [closing], rfl, kind ▸ first.word_ne_newline⟩

theorem BlockForm.runs {form : BlockForm} {token : Token} {names : List String} {blocks : Nat}
    (opens : token.kind = form.kind) :
    Reads ⟨names, ⟨.boundary false, blocks⟩⟩ [token]
      (.note (.statement form.form) :: .startLine form.opening :: Control.enterComparison)
      ⟨names, ⟨.operand (.condition false) false, blocks⟩⟩ := by
  cases form with
  | ifBlock => exact Reads.quiet (.line (.ifBlock opens)) rfl
  | whileBlock => exact Reads.quiet (.line (.whileBlock opens)) rfl

theorem Statement.runs {statements : List Statement} {tokens : List Token}
    (spelled : Statement.Spell statements tokens) {names : List String} {blocks : Nat}
    (declared : Mention.Scoped names (Statement.mentionsAll statements)) :
    Reads ⟨names, ⟨.boundary false, blocks⟩⟩ tokens (Statement.actionsAll names statements)
      ⟨Mention.known names (Statement.mentionsAll statements), ⟨.boundary false, blocks⟩⟩ := by
  induction spelled generalizing names blocks with
  | nil => exact .nil _
  | alone alone _ ih =>
    rw [mentionsAll, Mention.scoped_append] at declared
    rw [mentionsAll, Mention.known_append]
    exact (Statement.runs_alone alone declared.1).append (ih declared.2)
  | @block form condition body _ word opening closing _ _ within _ _ opens compared lBrace inner
      spelled rBrace outer _ ihBody ih =>
    rw [mentionsAll, mentions, Mention.scoped_append, Mention.scoped_append,
      Mention.known_append, Condition.silent] at declared
    rw [mentionsAll, mentions, Mention.known_append, Mention.known_append, Condition.silent]
    have opened : Reads ⟨names, ⟨.operator (.condition true), blocks⟩⟩ [opening]
        [.write ") \x7b\n"] ⟨names, ⟨.lineEnd true, blocks⟩⟩ :=
      .quiet (.operator (.endCondition lBrace)) rfl
    have closed : ∀ names, Reads ⟨names, ⟨.boundary false, blocks + 1⟩⟩ [closing]
        [.unindent, .startLine "\x7d\n"] ⟨names, ⟨.lineEnd false, blocks⟩⟩ :=
      fun names => .quiet (.line (.close rBrace)) rfl
    have lines := (ihBody declared.1.2).append (closed _)
    -- The block is indented at its first token, be that the start of a statement or its end.
    have entered : Reads ⟨names, ⟨.boundary true, blocks⟩⟩ (within ++ [closing])
        (.indent :: (Statement.actionsAll names body ++ [.unindent, .startLine "\x7d\n"]))
        ⟨Mention.known names (Statement.mentionsAll body), ⟨.lineEnd false, blocks⟩⟩ := by
      obtain ⟨token, rest, same, kind⟩ := spelled.line rBrace
      rw [same] at lines ⊢
      exact reads_entering kind lines
    have read := (((((BlockForm.runs opens).append (Condition.runs compared declared.1.1)).append
      opened).append inner.runs_lineEnd).append entered).append
        ((outer.runs_lineEnd).append (ih declared.2))
    simpa only [actionsAll, actions, mentions, Mention.known_append,
      Condition.silent condition names, List.cons_append, List.nil_append,
      List.append_assoc] using read

/-- The whole script is read, up to its end. -/
theorem Spells.runs {statements : List Statement} {tokens : List Token}
    (spelled : Spells statements tokens)
    (declared : Mention.Scoped [] (Statement.mentionsAll statements)) :
    ∃ front last names, tokens = front ++ [last] ∧ last.kind = .eof ∧
      Reads .start front (Statement.actionsAll [] statements) ⟨names, ⟨.boundary false, 0⟩⟩ := by
  cases spelled with
  | mk newlines spelled last =>
    exact ⟨_, _, _, by rw [List.append_assoc], last,
      (newlines_run newlines).append (Statement.runs spelled declared)⟩

end ScriptToCpp.Script
