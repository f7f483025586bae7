import ScriptToCpp.Proofs.Diagnosis
import ScriptToCpp.Proofs.Names
import ScriptToCpp.Proofs.Rendering

/-! The generated program in fragments: where it declares a variable, where it mentions one, and
where its blocks open and close. Put together, the fragments of a tree are the text that is written
for it, so that what holds of them holds of the generated program. -/
namespace ScriptToCpp

namespace Cpp

inductive Fragment where
  /-- Text without braces that count and without variables. -/
  | code (text : String)
  /-- The declaration of a variable, up to its name. -/
  | declares (name : String)
  /-- A variable that is given a value, or whose value is used. -/
  | mentions (name : String)
  | opens
  | closes
  deriving DecidableEq

namespace Fragment

def text : Fragment → String
  | code text => text
  | declares name => "double " ++ name
  | mentions name => name
  | opens => "\x7b"
  | closes => "\x7d"

/-- The variable that a fragment is about. -/
def name? : Fragment → Option String
  | declares name | mentions name => some name
  | code _ | opens | closes => none

def rename (naming : String → String) : Fragment → Fragment
  | declares name => declares (naming name)
  | mentions name => mentions (naming name)
  | code text => code text
  | opens => opens
  | closes => closes

theorem name?_rename (naming : String → String) (fragment : Fragment) :
    (fragment.rename naming).name? = fragment.name?.map naming := by
  cases fragment <;> rfl

end Fragment

/-- What the fragments say one after the other. -/
def text (fragments : List Fragment) : String :=
  String.join (fragments.map Fragment.text)

/-- What fragments say whose variables are those of a script. -/
def written (fragments : List Fragment) : String :=
  text (fragments.map (.rename variableName))

@[simp] theorem written_nil : written [] = "" := rfl

@[simp] theorem written_cons (fragment : Fragment) (rest : List Fragment) :
    written (fragment :: rest) = (fragment.rename variableName).text ++ written rest := by
  rw [written, List.map_cons, text, List.map_cons, String.join_cons]
  rfl

@[simp] theorem written_append (first second : List Fragment) :
    written (first ++ second) = written first ++ written second := by
  induction first with
  | nil => exact String.empty_append.symm
  | cons fragment rest ih =>
    rw [List.cons_append, written_cons, ih, written_cons, String.append_assoc]

theorem written_flatMap {α : Type} {items : List α} {fragments : α → List Fragment}
    {text : α → String} (each : ∀ x, written (fragments x) = text x) :
    written (items.flatMap fragments) = String.join (items.map text) := by
  induction items with
  | nil => rfl
  | cons x items ih =>
    rw [List.flatMap_cons, written_append, each, ih, List.map_cons, String.join_cons]

end Cpp

namespace Script
open Cpp (Fragment)

def Operand.fragments : Operand → List Fragment
  | number text => [.code (Cpp.numberLiteral text)]
  | named name => [.mentions name]

def Factor.fragments (factor : Factor) : List Fragment :=
  match factor.sign with
  | none => factor.operand.fragments
  | some sign => .code sign.text :: factor.operand.fragments

def Chain.fragments {joins : Kind → Bool} {α : Type} (item : α → List Fragment)
    (chain : Chain joins α) : List Fragment :=
  item chain.first ++
    chain.rest.flatMap fun (operator, x) => .code (" " ++ operator.text ++ " ") :: item x

def Term.fragments : Term → List Fragment := Chain.fragments Factor.fragments

def Expression.fragments : Expression → List Fragment := Chain.fragments Term.fragments

def Condition.fragments (condition : Condition) : List Fragment :=
  Chain.fragments Expression.fragments condition.toChain

mutual

/-- The fragments of a statement, with the names of the script, where `seen` holds the names
introduced before it. -/
def Statement.fragments (seen : List String) (level : Nat) : Statement → List Fragment
  | .printText text => [.code (indentation level ++ "cout << \"" ++ text ++ "\" << endl;\n")]
  | .print value =>
    .code (indentation level ++ "cout << (double)(") ::
      (Expression.fragments value ++ [.code ") << endl;\n"])
  | .block form condition body =>
    .code (indentation level ++ form.opening) ::
      (condition.fragments ++ .code ") " :: .opens :: .code "\n" ::
        (Statement.fragmentsAll seen (level + 1) body ++
          [.code (indentation level), .closes, .code "\n"]))
  | .declare name value =>
    .code (indentation level) :: (if name ∈ seen then .mentions name else .declares name) ::
      .code " = " :: (Expression.fragments value ++ [.code ";\n"])
  | .assign name value =>
    .code (indentation level) :: .mentions name ::
      .code " = " :: (Expression.fragments value ++ [.code ";\n"])
  | .input _ => []

def Statement.fragmentsAll (seen : List String) (level : Nat) : List Statement → List Fragment
  | [] => []
  | statement :: rest =>
    statement.fragments seen level ++
      Statement.fragmentsAll (seen ++ statement.introduced) level rest

end

/-- The fragments of the whole program, with the names of the script. -/
def fragments (statements : List Statement) : List Fragment :=
  .code "#include<iostream>\nusing namespace std;\n\nint main() " :: .opens :: .code "\n\n" ::
    (Statement.fragmentsAll [] 1 statements ++
      [Fragment.code "\n    return 0;\n", Fragment.closes, Fragment.code "\n"])

/-- The generated program. -/
def generated (statements : List Statement) : List Fragment :=
  (fragments statements).map (.rename Cpp.variableName)

theorem Operand.written_fragments (operand : Operand) :
    Cpp.written operand.fragments = operand.render := by
  cases operand <;>
    rw [fragments, Cpp.written_cons, Cpp.written_nil, String.append_empty] <;> rfl

theorem Factor.written_fragments (factor : Factor) :
    Cpp.written factor.fragments = factor.render := by
  obtain ⟨sign, operand⟩ := factor
  cases sign with
  | none => exact operand.written_fragments
  | some sign =>
    change Cpp.written (.code sign.text :: operand.fragments) = sign.text ++ operand.render
    rw [Cpp.written_cons, operand.written_fragments]
    rfl

theorem Chain.written_fragments {joins : Kind → Bool} {α : Type} {item : α → List Fragment}
    {text : α → String} (each : ∀ x, Cpp.written (item x) = text x) (chain : Chain joins α) :
    Cpp.written (chain.fragments item) = chain.render text := by
  rw [Chain.fragments, Cpp.written_append, each, Chain.render]
  congr 1
  apply Cpp.written_flatMap
  intro (operator, x)
  rw [Cpp.written_cons, each]
  rfl

theorem Term.written_fragments (term : Term) :
    Cpp.written (Term.fragments term) = Term.render term :=
  Chain.written_fragments Factor.written_fragments term

theorem Expression.written_fragments (value : Expression) :
    Cpp.written (Expression.fragments value) = Expression.render value :=
  Chain.written_fragments Term.written_fragments value

theorem Condition.written_fragments (condition : Condition) :
    Cpp.written condition.fragments = condition.render :=
  Chain.written_fragments Expression.written_fragments condition.toChain

/-- A text that is written in three pieces, the second of which is a brace. -/
theorem braced {before brace behind whole : String} (same : before ++ brace ++ behind = whole)
    (rest : String) : before ++ (brace ++ (behind ++ rest)) = whole ++ rest := by
  rw [← same, String.append_assoc, String.append_assoc]

mutual

theorem Statement.written_fragments (statement : Statement) (seen : List String) (level : Nat) :
    Cpp.written (statement.fragments seen level) = statement.render seen level := by
  cases statement with
  | printText text =>
    rw [fragments, Cpp.written_cons, Cpp.written_nil, String.append_empty]
    rfl
  | print value =>
    simp only [fragments, render, Cpp.written_cons, Cpp.written_append, Cpp.written_nil,
      Fragment.rename, Fragment.text, Expression.written_fragments, String.append_assoc,
      String.append_empty]
  | block form condition body =>
    have opening : ") " ++ "\x7b" ++ "\n" = ") \x7b\n" := by decide
    have closing : "\x7d" ++ "\n" = "\x7d\n" := by decide
    simp only [fragments, render, Cpp.written_cons, Cpp.written_append, Cpp.written_nil,
      Fragment.rename, Fragment.text, condition.written_fragments,
      Statement.written_fragmentsAll body, String.append_assoc, String.append_empty]
    rw [braced opening, closing]
  | declare name value =>
    by_cases known : name ∈ seen <;>
      simp only [fragments, render, Cpp.written_cons, Cpp.written_append, Cpp.written_nil,
        Fragment.rename, Fragment.text, Expression.written_fragments, String.append_assoc,
        String.append_empty, known, if_true, if_false]
  | assign name value =>
    simp only [fragments, render, Cpp.written_cons, Cpp.written_append, Cpp.written_nil,
      Fragment.rename, Fragment.text, Expression.written_fragments, String.append_assoc,
      String.append_empty]
  | input name => rfl

theorem Statement.written_fragmentsAll (statements : List Statement) (seen : List String)
    (level : Nat) :
    Cpp.written (Statement.fragmentsAll seen level statements) =
      Statement.renderAll seen level statements := by
  cases statements with
  | nil => rfl
  | cons statement rest =>
    rw [fragmentsAll, Cpp.written_append, Statement.written_fragments statement,
      Statement.written_fragmentsAll rest]
    rfl

end

theorem text_generated (statements : List Statement) :
    Cpp.text (generated statements) = render statements := by
  have opening : "#include<iostream>\nusing namespace std;\n\nint main() " ++ "\x7b" ++ "\n\n" =
      "#include<iostream>\nusing namespace std;\n\nint main() \x7b\n" ++ "\n" := by
    decide
  have closing : "\n    return 0;\n" ++ "\x7d" ++ "\n" = "\n    return 0;\n\x7d\n" := by decide
  have pieces : Cpp.written (fragments statements) =
      "#include<iostream>\nusing namespace std;\n\nint main() " ++ ("\x7b" ++ ("\n\n" ++
        (Statement.renderAll [] 1 statements ++
          ("\n    return 0;\n" ++ ("\x7d" ++ ("\n" ++ "")))))) := by
    rw [fragments, Cpp.written_cons, Cpp.written_cons, Cpp.written_cons, Cpp.written_append,
      Statement.written_fragmentsAll]
    rfl
  have whole : render statements =
      "#include<iostream>\nusing namespace std;\n\nint main() \x7b\n" ++ "\n" ++
        (Statement.renderAll [] 1 statements ++ "\n    return 0;\n\x7d\n") :=
    String.append_assoc
  rw [whole]
  change Cpp.written (fragments statements) = _
  rw [pieces, braced opening, braced closing, String.append_empty]

/-- The fragments only use variables, namely those that the mentions use. -/
structure Calculates (fragments : List Fragment) (mentions : List Mention) : Prop where
  flat : ∀ fragment ∈ fragments,
    (∃ text, fragment = .code text) ∨ ∃ name, fragment = .mentions name
  uses : ∀ name, .mentions name ∈ fragments ↔ .uses name ∈ mentions

namespace Calculates
variable {first second : List Fragment} {mentions others : List Mention}

theorem code (calculates : Calculates first mentions) (text : String) :
    Calculates (.code text :: first) mentions := by
  constructor
  · intro fragment member
    rcases List.mem_cons.mp member with rfl | later
    · exact .inl ⟨text, rfl⟩
    · exact calculates.flat fragment later
  · intro name
    rw [List.mem_cons, ← calculates.uses name]
    exact ⟨fun member => member.resolve_left nofun, .inr⟩

theorem append (left : Calculates first mentions) (right : Calculates second others) :
    Calculates (first ++ second) (mentions ++ others) := by
  constructor
  · intro fragment member
    rcases List.mem_append.mp member with before | behind
    · exact left.flat fragment before
    · exact right.flat fragment behind
  · intro name
    rw [List.mem_append, List.mem_append, left.uses, right.uses]

theorem flatMap {α : Type} {items : List α} {fragments : α → List Fragment}
    {names : α → List Mention} (each : ∀ x, Calculates (fragments x) (names x)) :
    Calculates (items.flatMap fragments) (items.flatMap names) := by
  induction items with
  | nil => exact ⟨by simp, by simp⟩
  | cons x items ih =>
    rw [List.flatMap_cons, List.flatMap_cons]
    exact (each x).append ih

end Calculates

theorem Operand.calculates (operand : Operand) :
    Calculates operand.fragments operand.mentions := by
  cases operand with
  | number text => exact ⟨by simp [fragments], by simp [fragments, mentions]⟩
  | named name => exact ⟨by simp [fragments], by simp [fragments, mentions]⟩

theorem Factor.calculates (factor : Factor) : Calculates factor.fragments factor.mentions := by
  obtain ⟨sign, operand⟩ := factor
  cases sign with
  | none => exact operand.calculates
  | some sign => exact operand.calculates.code sign.text

theorem Chain.calculates {joins : Kind → Bool} {α : Type} {item : α → List Fragment}
    {names : α → List Mention} (each : ∀ x, Calculates (item x) (names x))
    (chain : Chain joins α) : Calculates (chain.fragments item) (chain.mentions names) := by
  apply (each chain.first).append
  apply Calculates.flatMap
  intro (operator, x)
  exact (each x).code _

theorem Expression.calculates (value : Expression) :
    Calculates (Expression.fragments value) (Expression.mentions value) :=
  Chain.calculates (Chain.calculates Factor.calculates) value

theorem Condition.calculates (condition : Condition) :
    Calculates condition.fragments condition.mentions :=
  Chain.calculates Expression.calculates condition.toChain

theorem Calculates.named {fragments : List Fragment} {mentions : List Mention}
    (calculates : Calculates fragments mentions) {fragment : Fragment} {name : String}
    (member : fragment ∈ fragments) (named : fragment.name? = some name) :
    ∃ mention ∈ mentions, mention.name = name := by
  rcases calculates.flat fragment member with ⟨text, rfl⟩ | ⟨other, rfl⟩
  · contradiction
  · cases named
    exact ⟨.uses name, (calculates.uses name).mp member, rfl⟩

mutual

/-- A variable of the program is one that the script mentions. -/
theorem Statement.named {fragment : Fragment} {name : String}
    (named : fragment.name? = some name) (statement : Statement) {seen : List String} {level : Nat}
    (member : fragment ∈ statement.fragments seen level) :
    ∃ mention ∈ statement.mentions, mention.name = name := by
  have code : ∀ text, fragment ≠ .code text := by
    rintro text rfl
    contradiction
  cases statement with
  | printText text => simp [fragments, code] at member
  | print value =>
    simp only [fragments, List.mem_cons, List.mem_append, code, false_or, List.not_mem_nil,
      or_false] at member
    exact (Expression.calculates value).named member named
  | block form condition body =>
    have braces : fragment ≠ .opens ∧ fragment ≠ .closes := by
      constructor <;> (rintro rfl; contradiction)
    simp only [fragments, List.mem_cons, List.mem_append, code, braces, false_or,
      List.not_mem_nil, or_false] at member
    rcases member with compared | within
    · obtain ⟨mention, inside, same⟩ := condition.calculates.named compared named
      exact ⟨mention, List.mem_append_left _ inside, same⟩
    · obtain ⟨mention, inside, same⟩ := Statement.named_all named body within
      exact ⟨mention, List.mem_append_right _ inside, same⟩
  | declare other value =>
    simp only [fragments, List.mem_cons, List.mem_append, code, false_or, List.not_mem_nil,
      or_false] at member
    rcases member with target | given
    · refine ⟨.introduces other, List.mem_cons_self, ?_⟩
      rw [target] at named
      split at named <;> exact Option.some.inj named
    · obtain ⟨mention, inside, same⟩ := (Expression.calculates value).named given named
      exact ⟨mention, List.mem_cons_of_mem _ inside, same⟩
  | assign other value =>
    simp only [fragments, List.mem_cons, List.mem_append, code, false_or, List.not_mem_nil,
      or_false] at member
    rcases member with rfl | given
    · exact ⟨.uses other, List.mem_cons_self, Option.some.inj named⟩
    · obtain ⟨mention, inside, same⟩ := (Expression.calculates value).named given named
      exact ⟨mention, List.mem_cons_of_mem _ inside, same⟩
  | input other => contradiction

theorem Statement.named_all {fragment : Fragment} {name : String}
    (named : fragment.name? = some name) (statements : List Statement) {seen : List String}
    {level : Nat} (member : fragment ∈ Statement.fragmentsAll seen level statements) :
    ∃ mention ∈ Statement.mentionsAll statements, mention.name = name := by
  cases statements with
  | nil => contradiction
  | cons statement rest =>
    rcases List.mem_append.mp member with here | later
    · obtain ⟨mention, inside, same⟩ := Statement.named named statement here
      exact ⟨mention, List.mem_append_left _ inside, same⟩
    · obtain ⟨mention, inside, same⟩ := Statement.named_all named rest later
      exact ⟨mention, List.mem_append_right _ inside, same⟩

end

theorem named_fragments {statements : List Statement} {fragment : Fragment} {name : String}
    (member : fragment ∈ fragments statements) (named : fragment.name? = some name) :
    ∃ mention ∈ Statement.mentionsAll statements, mention.name = name := by
  simp only [fragments, List.mem_cons, List.mem_append, List.not_mem_nil, or_false] at member
  rcases member with rfl | rfl | rfl | within | rfl | rfl | rfl
  case inr.inr.inr.inl => exact Statement.named_all named statements within
  all_goals contradiction

end Script

/-- A text that is compiled has a tree that declares its names before it uses them, and what was
done for the text is what is done for the tree. -/
theorem compile_tree {source output : String} (compiled : compile source = .ok output) :
    ∃ tokens statements, tokenize source = .ok tokens ∧ Script.Spells statements tokens ∧
      Mention.Scoped [] (Script.Statement.mentionsAll statements) ∧
      output = written (Script.Statement.actionsAll [] statements) := by
  obtain ⟨front, last, actions, final, read, reads, reaction, rfl⟩ := compile_ok compiled
  have accepted : Stage.start.Accepts (front ++ [last]) :=
    ⟨front, last, actions, final, [], rfl, reads, reaction⟩
  obtain ⟨statements, spells, declared⟩ := accepted.isScript.tree (tokenize_regular read)
  refine ⟨front ++ [last], statements, read, spells, declared, ?_⟩
  obtain ⟨front', last', names, same, _, reads'⟩ := spells.runs declared
  obtain ⟨rfl, _⟩ := List.append_inj' same rfl
  obtain ⟨rfl, _⟩ := reads.unique reads'
  rfl

/-- The output is the program that is generated for the tree. -/
theorem compile_generates {source output : String} (compiled : compile source = .ok output) :
    ∃ tokens statements, tokenize source = .ok tokens ∧ Script.Spells statements tokens ∧
      Mention.Scoped [] (Script.Statement.mentionsAll statements) ∧
      output = Cpp.text (Script.generated statements) := by
  obtain ⟨tokens, statements, read, spells, declared, rfl⟩ := compile_tree compiled
  refine ⟨tokens, statements, read, spells, declared, ?_⟩
  rw [Script.text_generated, Script.written_actionsAll]

/-- A text whose tokens are those of a tree is compiled to the program that is generated for the
tree, if the tree declares its names before it uses them. -/
theorem Script.Spells.compiles {source : String} {tokens : List Token}
    {statements : List Script.Statement} (spelled : Script.Spells statements tokens)
    (declared : Mention.Scoped [] (Script.Statement.mentionsAll statements))
    (read : tokenize source = .ok tokens) :
    compile source = .ok (Cpp.text (Script.generated statements)) := by
  cases compiled : compile source with
  | ok output =>
    obtain ⟨tokens', statements', read', spelled', _, rfl⟩ := compile_generates compiled
    cases Except.ok.inj (read.symm.trans read')
    rw [spelled.unique spelled']
  | error failure =>
    have reported := compile_reported compiled
    rw [tokenize_ok_iff.mp read] at reported
    obtain ⟨before, token, after, _, rfl, _, _, deviates⟩ := reported.of_tokens
    refine absurd ⟨after, ?_⟩ deviates
    rw [← List.append_cons]
    exact (spelled.accepts declared).isScript

end ScriptToCpp
