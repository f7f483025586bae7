import ScriptToCpp.Proofs.Concatenation
import ScriptToCpp.Proofs.Generated
import ScriptToCpp.Proofs.Outcome

/-! Scripts one behind the other. Where a script ends the compiler is where it started, but for the
names that are declared: what follows is compiled as it would be behind lines that only read those
names, and what is written for it goes behind what was written before. -/
namespace ScriptToCpp
open Lexical (Cuts Ended Piece)

/-- The program with a given body: the lines that stand before every body, with the blank one among
them, and those that stand behind it. -/
def Cpp.program (body : String) : String :=
  String.join (Output.preamble.map (· ++ "\n")) ++ "\n" ++ body ++
    String.join (Output.closing.map (· ++ "\n"))

theorem written_program (actions : List Action) :
    written actions = Cpp.program (Action.textAll 1 actions) := by
  have opening : String.join (Cpp.Output.preamble.map (· ++ "\n")) =
      "#include<iostream>\nusing namespace std;\n\nint main() \x7b\n" := by
    decide
  have closing : String.join (Cpp.Output.closing.map (· ++ "\n")) =
      "\n    return 0;\n\x7d\n" := by
    decide
  rw [written_eq, Cpp.program, opening, closing]

/-- A line for each name that reads it. -/
def inputLines (names : List String) : String :=
  String.join (names.map fun name => "input " ++ name ++ "\n")

/-- The text is a script up to its end. It leaves the given names declared and the code written. -/
def Leads (head : String) (names : List String) (code : String) : Prop :=
  ∃ pieces actions, Cuts head.toList pieces ∧ Ended head.toList ∧
    Stage.start.Reads (Lexical.tokens .start pieces).dropLast actions ⟨names, .start⟩ ∧
    Action.Writes 1 actions code

theorem Token.lexeme_lower (lines : Nat) (tokens : List Token) :
    (tokens.map (Token.lower lines)).map lexeme = tokens.map lexeme := by
  rw [List.map_map]
  rfl

/-- What is compiled behind such a text is compiled as if it stood alone, with the names known. -/
theorem Leads.compiled_iff {head code : String} {names : List String}
    (leads : Leads head names code) (source output : String) :
    compile (head ++ source) = .ok output ↔ ∃ tokens actions, tokenize source = .ok tokens ∧
      Stage.Outcome ⟨names, .start⟩ tokens actions (.ok ()) ∧
      output = Cpp.program (code ++ Action.textAll 1 actions) := by
  obtain ⟨pieces, front, cuts, ended, reads, writes⟩ := leads
  have whole := tokenize_append cuts ended source
  have same := Token.lexeme_lower (head.toList.count '\n')
  have text : ∀ actions, written (front ++ actions) =
      Cpp.program (code ++ Action.textAll 1 actions) := by
    intro actions
    rw [written_program, writes]
  constructor
  · intro compiled
    obtain ⟨_, last, actions, final, read, moved, reaction, rfl⟩ := compile_ok compiled
    have outcome := moved.outcome (.accepted reaction)
    rw [List.append_nil] at outcome
    rw [read] at whole
    cases found : tokenize source with
    | error fault =>
      rw [found] at whole
      contradiction
    | ok tokens =>
      rw [found] at whole
      rw [Except.ok.inj whole] at outcome
      obtain ⟨more, behind, rfl⟩ := outcome.behind reads
      obtain ⟨result, alone, concur⟩ := behind.transfer (.refl _) (same tokens)
      cases concur
      exact ⟨tokens, more, rfl, alone, text more⟩
  · rintro ⟨tokens, actions, read, outcome, rfl⟩
    obtain ⟨result, moved, concur⟩ := outcome.transfer (.refl _) (same tokens).symm
    cases concur
    rw [read] at whole
    rw [(compile_of_outcome whole (reads.outcome moved)).1, text actions]
    rfl

/-- A script that is compiled leads to whatever stands on the lines behind it. -/
theorem compile_leads {source output : String} {names : List String}
    (compiled : compile source = .ok output) (declared : declaredNames source = .ok names) :
    ∃ body, Leads (source ++ "\n") names body ∧ (∀ name ∈ names, IsName name) ∧
      output = Cpp.program body := by
  obtain ⟨tokens, statements, read, spelled, inScope, rfl⟩ := compile_tree compiled
  obtain ⟨front, last, known, rfl, kind, reads⟩ := spelled.runs inScope
  have outcome := reads.outcome (.accepted (Control.accept_iff.mpr ⟨rfl, kind, rfl⟩))
  rw [List.append_nil] at outcome
  obtain rfl : known = names := by
    have enrolled := (compile_of_outcome read outcome).2
    rw [declared] at enrolled
    exact reads.names.trans (Except.ok.inj enrolled).symm
  have same : ∀ name : String, name ∈ [] ↔ name ∈ [] := fun _ => Iff.rfl
  have writes := Script.Statement.writesAll statements same 1
  refine ⟨Script.Statement.renderAll [] 1 statements, ?_, ?_, ?_⟩
  · obtain ⟨pieces, cuts, tokens_eq⟩ :=
      Lexical.cuts_of_drain _ (Lexical.ended_start source) (tokenize_ok_iff.mp read)
    have text : (source ++ "\n").toList = (Cursor.start source).rest := String.toList_append
    have ended := Lexical.ended_start source
    rw [← text] at cuts ended
    refine ⟨pieces, _, cuts, ended, ?_, writes⟩
    have location : (Cursor.start source).location = .start := rfl
    rw [location] at tokens_eq
    rw [← tokens_eq, List.dropLast_concat]
    exact reads
  · intro name member
    rw [show known = _ from reads.known, Mention.mem_known] at member
    obtain ⟨token, within, kind, same⟩ := scan_names (member.resolve_left nofun)
    have named := tokenize_names read token (List.mem_append_left _ within) kind
    rwa [same] at named
  · have all := writes []
    rw [List.append_nil, Action.textAll, String.append_empty] at all
    rw [written_program, all]

namespace Lexical

theorem Cuts.break {rest : List Char} {pieces : List Piece} (cuts : Cuts rest pieces) :
    Cuts ('\n' :: rest) (⟨[], ['\n'], .newline, "\n"⟩ :: pieces) := by
  have spelled : Spells .newline "\n" ['\n'] := .fixed (by decide) rfl
  have skipped : Longest Gap ([] ++ '\n' :: rest) [] := longest_blanks nofun (by decide)
  have found : Longest IsLexeme (['\n'] ++ rest) ['\n'] := by
    rw [longest_lexeme_iff ⟨_, _, spelled⟩ cuts.notPoint]
    rintro c _ ⟨kind, text, goesOn⟩
    obtain ⟨_, _, same⟩ := goesOn.break (by simp)
    simp at same
  exact .piece skipped found spelled cuts

theorem Cuts.input_line {name : String} (named : IsName name) {rest : List Char}
    {pieces : List Piece} (cuts : Cuts rest pieces) :
    Cuts (("input " ++ name ++ "\n").toList ++ rest)
      (⟨[], ['i', 'n', 'p', 'u', 't'], .input, "input"⟩ ::
        ⟨[' '], name.toList, .identifier, name⟩ :: ⟨[], ['\n'], .newline, "\n"⟩ :: pieces) := by
  obtain ⟨spelling, spelled⟩ := named
  cases spelled with
  | fixed _ same => contradiction
  | @name first others letter alphanums free =>
    have start := (isLexeme_word letter alphanums).start
    have blank : ∀ x ∈ [' '], x ∈ [' ', '\t', '\r'] := by simp
    have alphanums' : ∀ x ∈ ['n', 'p', 'u', 't'], x.isAlphanum := List.all_eq_true.mp rfl
    have named := Cuts.piece (longest_blanks blank start)
      (longest_word letter alphanums (by decide) (by decide)) (.name letter alphanums free)
      cuts.break
    have skipped : ∀ text, Longest Gap ([] ++ 'i' :: text) [] :=
      fun _ => longest_blanks (by simp) (by decide)
    have whole := Cuts.piece (skipped _)
      (longest_word (by decide) alphanums' (by decide) (by decide))
      (.fixed (by decide) rfl : Spells .input "input" ['i', 'n', 'p', 'u', 't']) named
    have text : ("input " ++ String.ofList (first :: others) ++ "\n").toList ++ rest =
        [] ++ (['i', 'n', 'p', 'u', 't'] ++ ([' '] ++ (first :: others ++ '\n' :: rest))) := by
      simp
    rw [text, String.toList_ofList]
    exact whole

end Lexical

theorem Lexical.Ended.append {first second : List Char} (left : Ended first)
    (right : Ended second) : Ended (first ++ second) := by
  intro c last
  rw [List.getLast?_append, Option.or_eq_some_iff] at last
  rcases last with behind | ⟨_, before⟩
  · exact right c behind
  · exact left c before

namespace Script

/-- The statements that read the names. -/
def inputs (names : List String) : List Statement :=
  names.map .input

theorem mentionsAll_inputs (names : List String) :
    Statement.mentionsAll (inputs names) = names.map .introduces := by
  induction names with
  | nil => rfl
  | cons name rest ih =>
    change .introduces name :: Statement.mentionsAll (inputs rest) = _
    rw [ih]
    rfl

theorem scoped_inputs (known names : List String) :
    Mention.Scoped known (Statement.mentionsAll (inputs names)) := by
  induction names generalizing known with
  | nil => trivial
  | cons name rest ih => exact ih (known.insert name)

theorem renderAll_inputs (seen names : List String) (level : Nat) :
    Statement.renderAll seen level (inputs names) = "" := by
  induction names generalizing seen with
  | nil => rfl
  | cons name rest ih =>
    change "" ++ Statement.renderAll (seen ++ [name]) level (inputs rest) = ""
    rw [ih, String.append_empty]

/-- The lines that read names are read as the statements that do so. -/
theorem inputLines_spell {order : List String} (named : ∀ name ∈ order, IsName name) :
    ∃ pieces, Cuts (inputLines order).toList pieces ∧ Ended (inputLines order).toList ∧
      ∀ here, Statement.Spell (inputs order) (Lexical.tokens here pieces).dropLast := by
  induction order with
  | nil => exact ⟨[], .done, nofun, fun _ => .nil⟩
  | cons name rest ih =>
    obtain ⟨pieces, cuts, ended, spelled⟩ := ih fun other member => named other (by simp [member])
    have text : (inputLines (name :: rest)).toList =
        ("input " ++ name ++ "\n").toList ++ (inputLines rest).toList := by
      rw [inputLines, List.map_cons, String.join_cons, String.toList_append]
      rfl
    have line : Ended ("input " ++ name ++ "\n").toList := by
      intro c last
      rw [String.toList_append] at last
      exact (Option.some.inj (List.getLast?_concat.symm.trans last)).symm
    rw [text]
    refine ⟨_, cuts.input_line (named name (by simp)), line.append ended, fun here => ?_⟩
    have first : ∀ word other breaks : Location, Statement.SpellsAlone (.input name)
        [⟨.input, "input", word⟩, ⟨.identifier, name, other⟩, ⟨.newline, "\n", breaks⟩] :=
      fun word other breaks =>
        @Statement.SpellsAlone.input ⟨.input, "input", word⟩ ⟨.identifier, name, other⟩ _ rfl rfl
          (Breaks.single ⟨.newline, "\n", breaks⟩ rfl)
    rw [Lexical.tokens, Lexical.tokens, Lexical.tokens, List.dropLast_cons_of_ne_nil (by simp),
      List.dropLast_cons_of_ne_nil (by simp),
      List.dropLast_cons_of_ne_nil (Lexical.tokens_ne_nil _ _)]
    exact .alone (first _ _ _) (spelled _)

end Script

/-- Lines that read names lead to what stands behind them, and write nothing. -/
theorem inputLines_lead {order : List String} (named : ∀ name ∈ order, IsName name) :
    ∃ names, Leads (inputLines order) names "" ∧ ∀ name, name ∈ names ↔ name ∈ order := by
  obtain ⟨pieces, cuts, ended, spelled⟩ := Script.inputLines_spell named
  have reads : Stage.start.Reads _ _ ⟨_, .start⟩ :=
    Script.Statement.runs (spelled .start) (Script.scoped_inputs [] order)
  have same : ∀ name : String, name ∈ [] ↔ name ∈ [] := fun _ => Iff.rfl
  have writes := Script.Statement.writesAll (Script.inputs order) same 1
  rw [Script.renderAll_inputs] at writes
  refine ⟨_, ⟨pieces, _, cuts, ended, reads, writes⟩, fun name => ?_⟩
  rw [Mention.mem_known, Script.mentionsAll_inputs]
  simp

/-- Compiling is compositional. Behind a script that is compiled, another text is compiled if and
only if it is behind lines that read the names which that script declares, in any order; and then
the body of the whole program is the body of the script followed by what is written for the text. -/
theorem compile_append_iff {first second output : String} {names order : List String}
    (compiled : compile first = .ok output) (declared : declaredNames first = .ok names)
    (same : ∀ name, name ∈ order ↔ name ∈ names) :
    ∃ body, output = Cpp.program body ∧
      ((∃ whole, compile (first ++ "\n" ++ second) = .ok whole) ↔
        ∃ rest, compile (inputLines order ++ second) = .ok rest) ∧
      ∀ whole rest, compile (first ++ "\n" ++ second) = .ok whole →
        compile (inputLines order ++ second) = .ok rest →
        ∃ tail, rest = Cpp.program tail ∧ whole = Cpp.program (body ++ tail) := by
  obtain ⟨body, leads, named, rfl⟩ := compile_leads compiled declared
  obtain ⟨known, leads', known_iff⟩ :=
    inputLines_lead fun name member => named name ((same name).mp member)
  have agrees : Stage.Agrees ⟨names, .start⟩ ⟨known, .start⟩ :=
    ⟨rfl, fun name => by rw [known_iff, same]⟩
  have agrees' : Stage.Agrees ⟨known, .start⟩ ⟨names, .start⟩ :=
    ⟨rfl, fun name => by rw [known_iff, same]⟩
  refine ⟨body, rfl, ⟨?_, ?_⟩, ?_⟩
  · rintro ⟨whole, compiled⟩
    obtain ⟨tokens, actions, read, outcome, _⟩ := (leads.compiled_iff second whole).mp compiled
    obtain ⟨_, outcome', ⟨⟩⟩ := outcome.transfer agrees rfl
    exact ⟨_, (leads'.compiled_iff second _).mpr ⟨tokens, actions, read, outcome', rfl⟩⟩
  · rintro ⟨rest, compiled⟩
    obtain ⟨tokens, actions, read, outcome, _⟩ := (leads'.compiled_iff second rest).mp compiled
    obtain ⟨_, outcome', ⟨⟩⟩ := outcome.transfer agrees' rfl
    exact ⟨_, (leads.compiled_iff second _).mpr ⟨tokens, actions, read, outcome', rfl⟩⟩
  · intro whole rest compiled compiled'
    obtain ⟨tokens, actions, read, outcome, rfl⟩ := (leads.compiled_iff second whole).mp compiled
    obtain ⟨_, further, read', outcome', rfl⟩ := (leads'.compiled_iff second rest).mp compiled'
    cases read.symm.trans read'
    obtain ⟨_, again, _⟩ := outcome.transfer agrees rfl
    obtain ⟨rfl, _⟩ := again.unique outcome'
    exact ⟨_, by rw [String.empty_append], rfl⟩

theorem redeclaration_behind_script :
    compile "declare b=1\ninput a" = .ok (Cpp.program "    double b = 1.0;\n") ∧
    declaredNames "declare b=1\ninput a" = .ok ["a", "b"] ∧
    ∃ body, Cpp.program "    double b = 1.0;\n" = Cpp.program body ∧
      ((∃ whole, compile ("declare b=1\ninput a" ++ "\n" ++ "\ndeclare a=b") = .ok whole) ↔
        ∃ rest, compile (inputLines ["b", "a"] ++ "\ndeclare a=b") = .ok rest) ∧
      ∀ whole rest, compile ("declare b=1\ninput a" ++ "\n" ++ "\ndeclare a=b") = .ok whole →
        compile (inputLines ["b", "a"] ++ "\ndeclare a=b") = .ok rest →
        ∃ tail, rest = Cpp.program tail ∧ whole = Cpp.program (body ++ tail) := by
  have compiled : compile "declare b=1\ninput a" =
      .ok (Cpp.program "    double b = 1.0;\n") := by
    cbv
  have declared : declaredNames "declare b=1\ninput a" = .ok ["a", "b"] := by
    cbv
  have same : ∀ name : String, name ∈ ["b", "a"] ↔ name ∈ ["a", "b"] := by
    intro name
    simp only [List.mem_cons, List.not_mem_nil, or_false]
    exact or_comm
  exact ⟨compiled, declared, compile_append_iff compiled declared same⟩

end ScriptToCpp
