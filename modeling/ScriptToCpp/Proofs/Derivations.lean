import ScriptToCpp.Proofs.Generated
import ScriptToCpp.Proofs.Outcome
import ScriptToCpp.Proofs.Sessions

/-! The derivation of a script: the rules of the grammar that its tree is made with, under the names
that a trace has for them. A compilation that is traced enters the rules one after another, each
before those of its parts, so that the trace of a script that is compiled is its derivation, printed
line by line from the root on. -/
namespace ScriptToCpp

/-- A rule by its name, and the derivations of its parts in the order of the text. -/
inductive Derivation where
  | node (name : String) (parts : List Derivation)

namespace Derivation

mutual

/-- The names in a derivation, each before those of its parts. -/
def preorder : Derivation → List String
  | node name parts => name :: preorderAll parts

def preorderAll : List Derivation → List String
  | [] => []
  | part :: rest => part.preorder ++ preorderAll rest

end

theorem preorderAll_append (parts others : List Derivation) :
    preorderAll (parts ++ others) = preorderAll parts ++ preorderAll others := by
  induction parts with
  | nil => rfl
  | cons part rest ih => rw [List.cons_append, preorderAll, ih, preorderAll, List.append_assoc]

/-- What is printed for a derivation: one line for each rule. -/
def print (derivation : Derivation) : String :=
  String.join (derivation.preorder.map (· ++ "\n"))

end Derivation

namespace Action

/-- The lines that actions add to a trace. -/
def lines : List Action → List String
  | [] => []
  | .note rule :: rest => rule.line :: lines rest
  | _ :: rest => lines rest

theorem lines_rules (actions : List Action) : lines actions = (rules actions).map Rule.line := by
  induction actions with
  | nil => rfl
  | cons action rest ih =>
    cases action with
    | note rule => exact congrArg (rule.line :: ·) ih
    | _ => exact ih

theorem lines_append (actions further : List Action) :
    lines (actions ++ further) = lines actions ++ lines further := by
  simp only [lines_rules, rules_append, List.map_append]

end Action

namespace Script
open ScriptToCpp.Action (lines lines_append)
open ScriptToCpp.Derivation (preorder preorderAll)

def Operand.derivation : Operand → Derivation
  | number text | named text => .node ("PRIMARY (" ++ text ++ ")") []

def Factor.derivation (factor : Factor) : Derivation :=
  .node "UNARY" [factor.operand.derivation]

/-- The rule of a chain is entered once, however many items it has. -/
def Chain.derivation {joins : Kind → Bool} {α : Type} (name : String) (item : α → Derivation)
    (chain : Chain joins α) : Derivation :=
  .node name (item chain.first :: chain.rest.map fun (_, x) => item x)

def Term.derivation : Term → Derivation := Chain.derivation "TERM" Factor.derivation

def Expression.derivation : Expression → Derivation :=
  Chain.derivation "EXPRESSION" Term.derivation

def Condition.derivation (condition : Condition) : Derivation :=
  Chain.derivation "COMPARISON" Expression.derivation condition.toChain

/-- The end of a line, with the empty lines behind it. -/
def lineBreak : Derivation := .node "NEWLINE" []

def BlockForm.title : BlockForm → String
  | ifBlock => "STATEMENT-IF"
  | whileBlock => "STATEMENT-WHILE"

mutual

/-- A block has a line break behind its opening brace, and each statement has one at its end. -/
def Statement.derivation : Statement → Derivation
  | .printText _ => .node "STATEMENT-PRINT" [lineBreak]
  | .print value => .node "STATEMENT-PRINT" [Expression.derivation value, lineBreak]
  | .block form condition body =>
    .node form.title
      (condition.derivation :: lineBreak :: (Statement.derivations body ++ [lineBreak]))
  | .declare _ value => .node "STATEMENT-DECLARE" [Expression.derivation value, lineBreak]
  | .assign _ value => .node "STATEMENT-ASSIGN" [Expression.derivation value, lineBreak]
  | .input _ => .node "STATEMENT-INPUT" [lineBreak]

def Statement.derivations : List Statement → List Derivation
  | [] => []
  | statement :: rest => statement.derivation :: Statement.derivations rest

end

/-- The derivation of a whole script. -/
def derivation (statements : List Statement) : Derivation :=
  .node "PROGRAM" (Statement.derivations statements)

theorem Operand.lines_actions (operand : Operand) :
    lines operand.actions = operand.derivation.preorder := by
  cases operand <;> rfl

theorem Factor.lines_actions (factor : Factor) :
    lines (Control.enterUnary ++ factor.actions) = factor.derivation.preorder := by
  have operand : lines factor.actions = factor.operand.derivation.preorder := by
    rw [← factor.operand.lines_actions, Factor.actions]
    -- A sign is written, but it is no rule.
    cases factor.sign <;> rfl
  rw [lines_append, operand, Factor.derivation, preorder, preorderAll, preorderAll, List.append_nil]
  rfl

theorem Chain.lines_actions {joins : Kind → Bool} {α : Type} {rule : Rule} {enter : List Action}
    {item : α → List Action} {part : α → Derivation}
    (each : ∀ x, lines (enter ++ item x) = (part x).preorder) (chain : Chain joins α) :
    lines (.note rule :: enter ++ chain.actions enter item) =
      (chain.derivation rule.line part).preorder := by
  obtain ⟨first, rest⟩ := chain
  have others : lines (rest.flatMap fun (operator, x) =>
      .write (" " ++ operator.text ++ " ") :: (enter ++ item x)) =
        preorderAll (rest.map fun (_, x) => part x) := by
    induction rest with
    | nil => rfl
    | cons pair rest ih =>
      rw [List.flatMap_cons, lines_append, ih, List.map_cons, preorderAll, ← each]
      rfl
  rw [Chain.actions, ← List.append_assoc, lines_append, others]
  rw [List.cons_append, Chain.derivation, preorder, preorderAll, ← each]
  rfl

theorem Term.lines_actions (term : Term) :
    lines (Control.enterTerm ++ Term.actions term) = (Term.derivation term).preorder :=
  Chain.lines_actions Factor.lines_actions term

theorem Expression.lines_actions (value : Expression) :
    lines (Control.enterExpression ++ Expression.actions value) =
      (Expression.derivation value).preorder :=
  Chain.lines_actions Term.lines_actions value

theorem Condition.lines_actions (condition : Condition) :
    lines (Control.enterComparison ++ condition.actions) = condition.derivation.preorder :=
  Chain.lines_actions Expression.lines_actions condition.toChain

theorem BlockForm.line_form (form : BlockForm) : (Rule.statement form.form).line = form.title := by
  cases form <;> rfl

mutual

/-- The actions for a statement print its derivation, whatever names are declared. -/
theorem Statement.lines_actions (statement : Statement) (names : List String) :
    lines (statement.actions names) = statement.derivation.preorder := by
  cases statement with
  | printText | input => rfl
  | print value | declare name value | assign name value =>
    simp only [Statement.actions, Statement.derivation, lines, lines_append,
      ← Expression.lines_actions, preorder, preorderAll]
    rfl
  | block form condition body =>
    simp only [Statement.actions, Statement.derivation, lines, lines_append, form.line_form,
      Statement.lines_actionsAll body names, ← condition.lines_actions, preorder, preorderAll,
      Derivation.preorderAll_append]
    rfl

theorem Statement.lines_actionsAll (statements : List Statement) (names : List String) :
    lines (Statement.actionsAll names statements) =
      preorderAll (Statement.derivations statements) := by
  cases statements with
  | nil => rfl
  | cons statement rest =>
    rw [Statement.actionsAll, lines_append, statement.lines_actions,
      Statement.lines_actionsAll rest, Statement.derivations, preorderAll]

end

theorem Spells.outcome {statements : List Statement} {tokens : List Token}
    (spelled : Spells statements tokens)
    (declared : Mention.Scoped [] (Statement.mentionsAll statements)) :
    Stage.start.Outcome tokens (Statement.actionsAll [] statements) (.ok ()) := by
  obtain ⟨front, last, names, rfl, kind, read⟩ := spelled.runs declared
  have outcome := read.outcome (.accepted (Control.accept_iff.mpr ⟨rfl, kind, rfl⟩))
  rwa [List.append_nil] at outcome

end Script

/-- A text whose tokens are accepted is compiled by every session for it, which takes the actions
that the tokens ask for. -/
theorem Session.program_of_outcome {source : String} {tokens : List Token} {actions : List Action}
    (read : tokenize source = .ok tokens) (outcome : Stage.start.Outcome tokens actions (.ok ()))
    (output : Cpp.Output) (tracing : Bool) :
    ∃ session last, Session.ofSource source output tracing = .ok session ∧
      session.program = (.ok (), last) ∧
      last.draft = ((Draft.start output tracing).opened.performAll actions).closed := by
  rw [tokenize_ok_iff] at read
  cases opened : Window.ofSource source with
  | error fault =>
    obtain ⟨found, _, faulty⟩ := Window.ofSource_error opened
    exact absurd (read.symm.trans faulty) Items.map_ne_fault
  | ok window =>
    obtain ⟨settled, same⟩ := Window.ofSource_ok opened
    obtain ⟨further, halts, performed⟩ :=
      window.run_halts (Draft.start output tracing).opened .start settled
    have unnamed : (Draft.start output tracing).opened.names = [] := by
      cases tracing <;> rfl
    rw [same, read, unnamed] at halts
    obtain ⟨result, again, ended⟩ := halts.outcome
    obtain ⟨rfl, rfl⟩ := outcome.unique again
    rcases ran : window.run (Draft.start output tracing).opened .start with ⟨result, behind, draft⟩
    rw [ran] at performed ended
    cases ended
    refine ⟨⟨window, .start output tracing⟩, ⟨behind, draft.closed⟩, ?_, ?_, ?_⟩
    · rw [Session.ofSource, opened]
    · rw [Session.program, ran]
    · exact congrArg Draft.closed performed

/-- The trace of a text that is compiled prints its derivation: a line for each rule, each before
those of its parts. The text has one tree, and this is the derivation of that tree. -/
theorem trace_derivation {source text : String} (compiled : compile source = .ok text) :
    ∃ tokens statements, tokenize source = .ok tokens ∧ Script.Spells statements tokens ∧
      (∀ other, Script.Spells other tokens → other = statements) ∧
      ∀ output, ∃ session last, Session.ofSource source output true = .ok session ∧
        session.program = (.ok (), last) ∧
        last.draft.trace = (Script.derivation statements).print := by
  obtain ⟨tokens, statements, read, spells, declared, _⟩ := compile_tree compiled
  refine ⟨tokens, statements, read, spells, fun other spelled => spelled.unique spells, ?_⟩
  intro output
  obtain ⟨session, last, opened, ran, draft⟩ :=
    Session.program_of_outcome read (spells.outcome declared) output true
  refine ⟨session, last, opened, ran, ?_⟩
  have traced : (Draft.start output true).opened.tracing = true := rfl
  have entered : last.draft.entered.reverse =
      .program :: Action.rules (Script.Statement.actionsAll [] statements) := by
    rw [draft, Draft.closed_entered, Draft.performAll_entered, if_pos traced,
      List.reverse_append, List.reverse_reverse]
    rfl
  have printed : last.draft.entered.reverse.map Rule.line =
      (Script.derivation statements).preorder := by
    rw [entered, List.map_cons, ← Action.lines_rules, Script.Statement.lines_actionsAll,
      Script.derivation, Derivation.preorder]
    rfl
  rw [Draft.trace, Rule.trace, Derivation.print, ← printed, List.map_map]
  rfl

theorem nested_blocks_traced :
    let source := "input n\nwhile n*2-1>0\x7b\n\nif n!=+1\x7b\n\x7d\nn=n-1\n\x7d"
    let printed := "PROGRAM\nSTATEMENT-INPUT\nNEWLINE\n" ++
      "STATEMENT-WHILE\nCOMPARISON\n" ++
      "EXPRESSION\nTERM\nUNARY\nPRIMARY (n)\nUNARY\nPRIMARY (2)\nTERM\nUNARY\nPRIMARY (1)\n" ++
      "EXPRESSION\nTERM\nUNARY\nPRIMARY (0)\nNEWLINE\n" ++
      "STATEMENT-IF\nCOMPARISON\n" ++
      "EXPRESSION\nTERM\nUNARY\nPRIMARY (n)\nEXPRESSION\nTERM\nUNARY\nPRIMARY (1)\n" ++
      "NEWLINE\nNEWLINE\n" ++
      "STATEMENT-ASSIGN\nEXPRESSION\nTERM\nUNARY\nPRIMARY (n)\nTERM\nUNARY\nPRIMARY (1)\n" ++
      "NEWLINE\nNEWLINE\n"
    ∃ text tokens statements, compile source = .ok text ∧ tokenize source = .ok tokens ∧
      Script.Spells statements tokens ∧
      (∀ other, Script.Spells other tokens → other = statements) ∧
      (Script.derivation statements).print = printed ∧
      ∀ output, ∃ session last, Session.ofSource source output true = .ok session ∧
        session.program = (.ok (), last) ∧ last.draft.trace = printed := by
  intro source printed
  have accepted : (compile source).isOk := by decide +kernel
  have computed : (Session.ofSource source (.empty Cpp.Output.defaultPath) true).map
      (fun session => session.program.2.draft.trace) = .ok printed := by
    decide +kernel
  cases compiled : compile source with
  | ok text =>
    obtain ⟨tokens, statements, read, spells, unique, traced⟩ := trace_derivation compiled
    have lines : (Script.derivation statements).print = printed := by
      obtain ⟨session, last, opened, ran, trace⟩ := traced (.empty Cpp.Output.defaultPath)
      rw [opened] at computed
      have same : session.program.2.draft.trace = printed := Except.ok.inj computed
      rw [ran] at same
      exact trace.symm.trans same
    exact ⟨text, tokens, statements, rfl, read, spells, unique, lines, lines ▸ traced⟩
  | error failure =>
    rw [compiled] at accepted
    contradiction

end ScriptToCpp
