import ScriptToCpp.Proofs.Halting
import ScriptToCpp.Proofs.Recognition
import ScriptToCpp.Proofs.Unambiguity
import Mathlib

/-! The program that a script stands for, as a function of its tree. The compiler writes it piece by
piece while it reads, with the indentation and the names as they are at that moment; what it has
written in the end is what the function gives. -/
namespace ScriptToCpp

namespace Script

/-- Four blanks for each level. -/
def indentation (level : Nat) : String :=
  String.ofList (List.replicate (4 * level) ' ')

def Operand.render : Operand → String
  | number text => Cpp.numberLiteral text
  | named name => Cpp.variableName name

def Factor.render (factor : Factor) : String :=
  match factor.sign with
  | none => factor.operand.render
  | some sign => sign.text ++ factor.operand.render

def Chain.render {joins : Kind → Bool} {α : Type} (item : α → String) (chain : Chain joins α) :
    String :=
  item chain.first ++
    String.join (chain.rest.map fun (operator, x) => " " ++ operator.text ++ " " ++ item x)

def Term.render : Term → String := Chain.render Factor.render

def Expression.render : Expression → String := Chain.render Term.render

def Condition.render (condition : Condition) : String :=
  Chain.render Expression.render condition.toChain

mutual

/-- The names that a statement declares or reads, those of its body included. -/
def Statement.introduced : Statement → List String
  | .declare name _ | .input name => [name]
  | .block _ _ body => Statement.introducedAll body
  | .printText _ | .print _ | .assign _ _ => []

def Statement.introducedAll : List Statement → List String
  | [] => []
  | statement :: rest => statement.introduced ++ Statement.introducedAll rest

end

mutual

/-- The lines of a statement, where `seen` holds the names introduced before it. -/
def Statement.render (seen : List String) (level : Nat) : Statement → String
  | .printText text => indentation level ++ "cout << \"" ++ text ++ "\" << endl;\n"
  | .print value =>
    indentation level ++ "cout << (double)(" ++ Expression.render value ++ ") << endl;\n"
  | .block form condition body =>
    indentation level ++ form.opening ++ condition.render ++ ") \x7b\n" ++
      Statement.renderAll seen (level + 1) body ++ indentation level ++ "\x7d\n"
  | .declare name value =>
    indentation level ++ (if name ∈ seen then "" else "double ") ++ Cpp.variableName name ++
      " = " ++ Expression.render value ++ ";\n"
  | .assign name value =>
    indentation level ++ Cpp.variableName name ++ " = " ++ Expression.render value ++ ";\n"
  | .input _ => ""

def Statement.renderAll (seen : List String) (level : Nat) : List Statement → String
  | [] => ""
  | statement :: rest =>
    statement.render seen level ++ Statement.renderAll (seen ++ statement.introduced) level rest

end

/-- The whole program. -/
def render (statements : List Statement) : String :=
  "#include<iostream>\nusing namespace std;\n\nint main() \x7b\n" ++ "\n" ++
    Statement.renderAll [] 1 statements ++ "\n    return 0;\n\x7d\n"

theorem indentation_eq (level : Nat) : Cpp.Output.indentation level = indentation level := by
  induction level with
  | zero => rfl
  | succ level ih =>
    have four : Cpp.Output.indent = String.ofList (List.replicate 4 ' ') := by decide
    rw [Cpp.Output.indentation, List.replicate_succ, String.join_cons, ← Cpp.Output.indentation, ih,
      four, indentation, indentation, ← String.ofList_append, List.replicate_append_replicate]
    congr 2
    omega

end Script

namespace Action

/-- How far lines are indented after an action. -/
def level (depth : Nat) : Action → Nat
  | indent => depth + 1
  | unindent => depth - 1
  | _ => depth

/-- What an action writes. -/
def text (depth : Nat) : Action → String
  | startLine text => Cpp.Output.indentation depth ++ text
  | write text => text
  | _ => ""

def textAll (depth : Nat) : List Action → String
  | [] => ""
  | action :: rest => action.text depth ++ textAll (action.level depth) rest

/-- The actions write the text and leave the indentation as it is, whatever is done behind them. -/
def Writes (depth : Nat) (actions : List Action) (text : String) : Prop :=
  ∀ rest, textAll depth (actions ++ rest) = text ++ textAll depth rest

namespace Writes
variable {depth : Nat} {actions further : List Action} {text more : String}

theorem append (first : Writes depth actions text) (second : Writes depth further more) :
    Writes depth (actions ++ further) (text ++ more) := by
  intro rest
  rw [List.append_assoc, first, second, String.append_assoc]

theorem nil (depth : Nat) : Writes depth [] "" := by
  intro rest
  exact String.empty_append.symm

/-- Notes are for the trace alone. -/
theorem notes (depth : Nat) (rules : List Rule) : Writes depth (rules.map note) "" := by
  intro rest
  induction rules with
  | nil => exact String.empty_append.symm
  | cons rule rules ih =>
    change "" ++ textAll depth (rules.map note ++ rest) = _
    rw [ih, String.empty_append]

theorem noted {rule : Rule} (written : Writes depth actions text) :
    Writes depth (note rule :: actions) text := by
  have noted := (notes depth [rule]).append written
  rwa [String.empty_append] at noted

theorem enroll (depth : Nat) (name : String) : Writes depth [.enroll name] "" :=
  fun _ => rfl

theorem write (depth : Nat) (text : String) : Writes depth [.write text] text :=
  fun _ => rfl

theorem startLine (depth : Nat) (text : String) :
    Writes depth [.startLine text] (Script.indentation depth ++ text) := by
  intro rest
  rw [← Script.indentation_eq]
  rfl

theorem indented (body : Writes (depth + 1) actions text) :
    Writes depth (.indent :: (actions ++ [.unindent])) text := by
  intro rest
  change "" ++ textAll (depth + 1) (actions ++ [.unindent] ++ rest) = _
  rw [String.empty_append, List.append_assoc, body]
  change text ++ ("" ++ textAll depth rest) = _
  rw [String.empty_append]

theorem flatMap {α : Type} {items : List α} {actions : α → List Action} {text : α → String}
    (each : ∀ x, Writes depth (actions x) (text x)) :
    Writes depth (items.flatMap actions) (String.join (items.map text)) := by
  induction items with
  | nil => exact nil depth
  | cons x items ih =>
    rw [List.flatMap_cons, List.map_cons, String.join_cons]
    exact (each x).append ih

end Writes
end Action

theorem Draft.perform_writes (draft : Draft) (action : Action) :
    (draft.perform action).depth = action.level draft.depth ∧
      (draft.perform action).output = draft.output.write (action.text draft.depth) := by
  have idle : draft.output = draft.output.write "" := by
    rw [Cpp.Output.write, String.append_empty]
  cases action with
  | note rule =>
    rw [perform]
    split <;> exact ⟨rfl, idle⟩
  | startLine text => exact ⟨rfl, rfl⟩
  | write text => exact ⟨rfl, rfl⟩
  | enroll name => exact ⟨rfl, idle⟩
  | indent => exact ⟨rfl, idle⟩
  | unindent => exact ⟨rfl, idle⟩

theorem Draft.performAll_output (draft : Draft) (actions : List Action) :
    (draft.performAll actions).output =
      draft.output.write (Action.textAll draft.depth actions) := by
  induction actions generalizing draft with
  | nil =>
    rw [Action.textAll, Cpp.Output.write, String.append_empty]
    rfl
  | cons action rest ih =>
    obtain ⟨depth, output⟩ := draft.perform_writes action
    change ((draft.perform action).performAll rest).output = _
    rw [ih, depth, output, Action.textAll, Cpp.Output.write, Cpp.Output.write, Cpp.Output.write,
      String.append_assoc]

namespace Script
open ScriptToCpp.Action (Writes)

theorem Operand.writes (operand : Operand) (level : Nat) :
    Writes level operand.actions operand.render := by
  cases operand with
  | number text =>
    have written := (Writes.notes level [.primary text]).append
      (Writes.write level (Cpp.numberLiteral text))
    rwa [String.empty_append] at written
  | named name =>
    have written := (Writes.notes level [.primary name]).append
      (Writes.write level (Cpp.variableName name))
    rwa [String.empty_append] at written

theorem Factor.writes (factor : Factor) (level : Nat) :
    Writes level factor.actions factor.render := by
  obtain ⟨sign, operand⟩ := factor
  cases sign with
  | none => exact operand.writes level
  | some sign => exact (Writes.write level sign.text).append (operand.writes level)

theorem Chain.writes {joins : Kind → Bool} {α : Type} {enter : List Action}
    {item : α → List Action} {text : α → String} {level : Nat}
    (entered : Writes level enter "") (each : ∀ x, Writes level (item x) (text x))
    (chain : Chain joins α) : Writes level (chain.actions enter item) (chain.render text) := by
  obtain ⟨first, rest⟩ := chain
  apply (each first).append
  apply Writes.flatMap
  intro (operator, x)
  have joined := (Writes.write level (" " ++ operator.text ++ " ")).append
    (entered.append (each x))
  rwa [String.empty_append] at joined

theorem Term.writes (term : Term) (level : Nat) :
    Writes level (Term.actions term) (Term.render term) :=
  Chain.writes (.notes level [.unary]) (fun factor => factor.writes level) term

theorem Expression.writes (value : Expression) (level : Nat) :
    Writes level (Expression.actions value) (Expression.render value) :=
  Chain.writes (.notes level [.term, .unary]) (fun term => Term.writes term level) value

theorem Condition.writes (condition : Condition) (level : Nat) :
    Writes level condition.actions condition.render :=
  Chain.writes (.notes level [.expression, .term, .unary])
    (fun value => Expression.writes value level) condition.toChain

theorem Silent.introduces_notMem {mentions : List Mention} (silent : Silent mentions)
    (name : String) : .introduces name ∉ mentions := by
  intro member
  have known : name ∈ Mention.known [] mentions := Mention.mem_known.mpr (.inr member)
  rw [silent] at known
  contradiction

mutual

theorem Statement.introduces_iff (statement : Statement) (name : String) :
    .introduces name ∈ statement.mentions ↔ name ∈ statement.introduced := by
  cases statement with
  | printText text => simp [mentions, introduced]
  | print value =>
    simp [mentions, introduced, (Expression.silent value).introduces_notMem]
  | block form condition body =>
    simp [mentions, introduced, condition.silent.introduces_notMem,
      Statement.introducesAll_iff body]
  | declare other value =>
    simp [mentions, introduced, (Expression.silent value).introduces_notMem]
  | assign other value =>
    simp [mentions, introduced, (Expression.silent value).introduces_notMem]
  | input other => simp [mentions, introduced]

theorem Statement.introducesAll_iff (statements : List Statement) (name : String) :
    .introduces name ∈ Statement.mentionsAll statements ↔
      name ∈ Statement.introducedAll statements := by
  cases statements with
  | nil => simp [mentionsAll, introducedAll]
  | cons statement rest =>
    simp [mentionsAll, introducedAll, Statement.introduces_iff statement,
      Statement.introducesAll_iff rest]

end

/-- A value that is written between two texts, the first of which starts a line. -/
theorem Expression.writes_line (value : Expression) (level : Nat) (first last : String) :
    Writes level (.startLine first :: (Control.enterExpression ++ Expression.actions value ++
        [.write last, .note .newline]))
      (indentation level ++ first ++ Expression.render value ++ last) := by
  have entered : Writes level Control.enterExpression "" :=
    .notes level [.expression, .term, .unary]
  have ended := (Writes.write level last).append (.notes level [.newline])
  have line := (Writes.startLine level first).append
    ((entered.append (Expression.writes value level)).append ended)
  simpa only [String.empty_append, String.append_empty, String.append_assoc, List.cons_append,
    List.nil_append, List.map_cons, List.map_nil] using line

mutual

theorem Statement.writes (statement : Statement) {names seen : List String}
    (same : ∀ name, name ∈ names ↔ name ∈ seen) (level : Nat) :
    Writes level (statement.actions names) (statement.render seen level) := by
  cases statement with
  | printText text =>
    have line := (Writes.startLine level ("cout << \"" ++ text ++ "\" << endl;\n")).append
      (.notes level [.newline])
    rw [String.append_empty, ← String.append_assoc, ← String.append_assoc] at line
    exact line.noted
  | print value => exact (Expression.writes_line value level _ _).noted
  | block form condition body =>
    have entered : Writes level Control.enterComparison "" :=
      .notes level [.comparison, .expression, .term, .unary]
    have opened := (Writes.startLine level form.opening).append
      ((entered.append (condition.writes level)).append
        ((Writes.write level ") \x7b\n").append (.notes level [.newline])))
    have lines := (Statement.writesAll body same (level + 1)).indented
    have closed := (Writes.startLine level "\x7d\n").append (.notes level [.newline])
    have whole := opened.append (lines.append closed)
    rw [Statement.actions, Statement.render]
    apply Writes.noted
    simpa only [String.empty_append, String.append_empty, String.append_assoc, List.cons_append,
      List.nil_append, List.append_assoc, List.map_cons, List.map_nil] using whole
  | declare name value =>
    have first : (if name ∈ names then "" else "double ") =
        if name ∈ seen then "" else "double " := by
      simp only [same]
    have line := (Writes.enroll level name).append (Expression.writes_line value level
      ((if name ∈ seen then "" else "double ") ++ Cpp.variableName name ++ " = ") ";\n")
    rw [Statement.actions, first]
    rw [String.empty_append, ← String.append_assoc, ← String.append_assoc] at line
    exact line.noted
  | assign name value =>
    have line := Expression.writes_line value level (Cpp.variableName name ++ " = ") ";\n"
    rw [← String.append_assoc] at line
    exact line.noted
  | input name =>
    have line := (Writes.enroll level name).append (.notes level [.newline])
    rw [String.append_empty] at line
    exact line.noted

theorem Statement.writesAll (statements : List Statement) {names seen : List String}
    (same : ∀ name, name ∈ names ↔ name ∈ seen) (level : Nat) :
    Writes level (Statement.actionsAll names statements)
      (Statement.renderAll seen level statements) := by
  cases statements with
  | nil => exact .nil level
  | cons statement rest =>
    have later : ∀ name, name ∈ Mention.known names statement.mentions ↔
        name ∈ seen ++ statement.introduced := by
      intro name
      rw [Mention.mem_known, Statement.introduces_iff, List.mem_append, same]
    exact (Statement.writes statement same level).append (Statement.writesAll rest later level)

end

end Script

theorem opened_output : (Draft.start default false).opened.output =
    ⟨Cpp.Output.defaultPath,
      "#include<iostream>\nusing namespace std;\n\nint main() \x7b\n", "\n"⟩ := by
  decide

theorem closing_output (output : Cpp.Output) :
    Cpp.Output.closing.foldl Cpp.Output.writeLine output =
      output.write "\n    return 0;\n\x7d\n" := by
  have last : "" ++ "\n" ++ (Cpp.Output.indent ++ "return 0;" ++ "\n" ++ ("\x7d" ++ "\n")) =
      "\n    return 0;\n\x7d\n" := by
    decide
  rw [← last, Cpp.Output.closing, List.foldl_cons, List.foldl_cons, List.foldl_cons, List.foldl_nil]
  simp only [Cpp.Output.writeLine, Cpp.Output.write, String.append_assoc]

theorem written_eq (actions : List Action) :
    written actions = "#include<iostream>\nusing namespace std;\n\nint main() \x7b\n" ++ "\n" ++
      Action.textAll 1 actions ++ "\n    return 0;\n\x7d\n" := by
  have level : (Draft.start default false).opened.depth = 1 := rfl
  rw [written, Draft.closed, Draft.performAll_output, closing_output, opened_output, level]
  simp only [Cpp.Output.write, Cpp.Output.text, String.append_assoc]

/-- What the actions of a tree write is its program. -/
theorem Script.written_actionsAll (statements : List Statement) :
    written (Statement.actionsAll [] statements) = render statements := by
  have same : ∀ name : String, name ∈ [] ↔ name ∈ [] := fun _ => Iff.rfl
  have code := Statement.writesAll statements same 1 []
  rw [List.append_nil, Action.textAll, String.append_empty] at code
  rw [written_eq, code]
  rfl

/-- A text that is compiled has one tree, and the output is the program of that tree. -/
theorem compile_renders {source output : String} (compiled : compile source = .ok output) :
    ∃ tokens statements, tokenize source = .ok tokens ∧ Script.Spells statements tokens ∧
      (∀ other, Script.Spells other tokens → other = statements) ∧
      output = Script.render statements := by
  obtain ⟨front, last, actions, final, read, reads, reaction, rfl⟩ := compile_ok compiled
  have accepted : Stage.start.Accepts (front ++ [last]) :=
    ⟨front, last, actions, final, [], rfl, reads, reaction⟩
  obtain ⟨statements, spells, declared⟩ := accepted.isScript.tree (tokenize_regular read)
  -- The tree has been run over the same tokens, so that its actions are those of the compiler.
  obtain ⟨front', last', names, same, _, reads'⟩ := spells.runs declared
  obtain ⟨rfl, _⟩ := List.append_inj' same rfl
  obtain ⟨rfl, _⟩ := reads.unique reads'
  refine ⟨front ++ [last], statements, read, spells, ?_, Script.written_actionsAll statements⟩
  intro other spelled
  exact spelled.unique spells

theorem redeclaration_renders :
    ∃ output, compile "if 1>0\x7b\ninput k\n\x7d\ndeclare k=-2" = .ok output ∧
      ∃ tokens statements, tokenize "if 1>0\x7b\ninput k\n\x7d\ndeclare k=-2" = .ok tokens ∧
        Script.Spells statements tokens ∧
        (∀ other, Script.Spells other tokens → other = statements) ∧
        output = Script.render statements := by
  have compiled : compile "if 1>0\x7b\ninput k\n\x7d\ndeclare k=-2" = .ok
      ("#include<iostream>\nusing namespace std;\n\nint main() \x7b\n\n" ++
        "    if(1.0 > 0.0) \x7b\n    \x7d\n    k = -2.0;\n\n    return 0;\n\x7d\n") := by
    cbv
  exact ⟨_, compiled, compile_renders compiled⟩

end ScriptToCpp
