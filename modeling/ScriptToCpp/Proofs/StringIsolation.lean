import ScriptToCpp.Proofs.Quotation
import ScriptToCpp.Proofs.Rewording

/-! What the strings of a script say stays within the quotes of the generated program. A string holds
neither quotes nor escapes, so that its literal ends where it should; and all that stands outside of
the literals is the same for every content of the strings. -/
namespace ScriptToCpp
open Cpp (Frames Harmless)

/-- The texts of the strings among some tokens. -/
def strings (tokens : List Token) : List String :=
  (tokens.filter (·.kind = .string)).map Token.text

theorem strings_append (first second : List Token) :
    strings (first ++ second) = strings first ++ strings second := by
  rw [strings, List.filter_append, List.map_append]
  rfl

theorem strings_skip {token : Token} {kind : Kind} (same : token.kind = kind)
    (plain : kind ≠ .string) (rest : List Token) : strings (token :: rest) = strings rest := by
  rw [strings, List.filter_cons_of_neg (by simpa [same] using plain)]
  rfl

theorem strings_found {token : Token} (string : token.kind = .string) (rest : List Token) :
    strings (token :: rest) = token.text :: strings rest := by
  rw [strings, List.filter_cons_of_pos (by simpa using string)]
  rfl

theorem strings_newlines {tokens : List Token} (newlines : ∀ token ∈ tokens, token.kind = .newline) :
    strings tokens = [] := by
  rw [strings, List.map_eq_nil_iff, List.filter_eq_nil_iff]
  intro token member
  simp [newlines token member]

/-- A token that a text may have: the end token, or one of a lexeme. -/
def Token.Legible (token : Token) : Prop :=
  token.kind = .eof ∨ ∃ spelling, Lexical.Spells token.kind token.text spelling

theorem tokenize_legible {source : String} {tokens : List Token}
    (read : tokenize source = .ok tokens) : ∀ token ∈ tokens, token.Legible := by
  obtain ⟨pieces, cuts, rfl⟩ :=
    Lexical.cuts_of_drain _ (Lexical.ended_start source) (tokenize_ok_iff.mp read)
  exact fun token member => cuts.token_spelled member

theorem Token.Legible.spelled {token : Token} (legible : token.Legible) {kind : Kind}
    (same : token.kind = kind) (more : kind ≠ .eof) :
    ∃ spelling, Lexical.Spells kind token.text spelling := by
  subst same
  exact legible.resolve_left more

theorem Lexical.Spells.content {text : String} {spelling : List Char}
    (spelled : Lexical.Spells .string text spelling) :
    ∀ c ∈ text.toList, c ∉ ['"', '\n', '\r', '\t', '\\', '%'] := by
  cases spelled with
  | fixed _ same => contradiction
  | string plain =>
    rw [String.toList_ofList]
    exact plain

theorem Lexical.Spells.numeral {text : String} {spelling : List Char}
    (spelled : Lexical.Spells .number text spelling) : ∀ c ∈ text.toList, c.isAlphanum ∨ c = '.' := by
  have digit : ∀ c : Char, c.isDigit → c.isAlphanum ∨ c = '.' := by
    intro c digit
    rw [Char.isAlphanum, digit, Bool.or_true]
    exact .inl rfl
  cases spelled with
  | fixed _ same => cases same
  | whole _ digits =>
    rw [String.toList_ofList]
    exact fun c member => digit c (digits c member)
  | fraction _ digits _ decimals =>
    rw [String.toList_ofList]
    intro c member
    rcases List.mem_append.mp member with before | behind
    · exact digit c (digits c before)
    · rcases List.mem_cons.mp behind with point | behind
      · exact .inr point
      · exact digit c (decimals c behind)

namespace Cpp

theorem Harmless.of_word {text : String} (plain : ∀ c ∈ text.toList, c.isAlphanum ∨ c = '.') :
    Harmless text := by
  intro c member special
  simp only [List.mem_cons, List.not_mem_nil, or_false] at special
  have word := plain c member
  rcases special with rfl | rfl | rfl | rfl | rfl | rfl <;> simp at word

theorem numberLiteral_harmless {text : String} (harmless : Harmless text) :
    Harmless (numberLiteral text) := by
  unfold numberLiteral
  split
  · exact harmless
  · exact harmless.append (by decide)

theorem variableName_harmless {name : String} (harmless : Harmless name) :
    Harmless (variableName name) := by
  rcases variableName_cases name with ⟨_, renamed⟩ | ⟨_, kept⟩
  · rw [renamed]
    exact harmless.append (by decide)
  · rw [kept]
    exact harmless

end Cpp

theorem IsName.harmless {name : String} (named : IsName name) : Harmless (Cpp.variableName name) :=
  Cpp.variableName_harmless (.of_word fun c member => .inl (named.word.1 c member))

namespace Script

theorem indentation_harmless (level : Nat) : Harmless (indentation level) := by
  intro c member
  rw [indentation, String.toList_ofList] at member
  rw [List.eq_of_mem_replicate member]
  decide

theorem Operand.Spells.harmless {operand : Operand} {token : Token}
    (spelled : operand.Spells token) (legible : token.Legible) : Harmless operand.render := by
  cases spelled with
  | number kind =>
    obtain ⟨_, spelled⟩ := legible.spelled kind (by decide)
    exact Cpp.numberLiteral_harmless (.of_word spelled.numeral)
  | named kind => exact IsName.harmless (legible.spelled kind (by decide))

theorem Operand.Spells.noString {operand : Operand} {token : Token}
    (spelled : operand.Spells token) : token.kind ≠ .string := by
  cases spelled with
  | number kind => simp [kind]
  | named kind => simp [kind]

/-- What tokens spell is written in harmless text, and no string is among them. -/
def Plain {α : Type} (spells : α → List Token → Prop) (render : α → String) : Prop :=
  ∀ x tokens, spells x tokens → (∀ token ∈ tokens, token.Legible) →
    Harmless (render x) ∧ strings tokens = []

theorem operator_harmless {kind : Kind}
    (operator : kind.isAdditive ∨ kind.isMultiplicative ∨ kind.isComparison) :
    Harmless (kind.spelling?.getD "") ∧ kind ≠ .string := by
  revert operator
  cases kind <;> decide

theorem Factor.plain : Plain Factor.Spells Factor.render := by
  intro factor tokens spelled legible
  cases spelled with
  | plain operand =>
    exact ⟨operand.harmless (legible _ (by simp)), strings_skip rfl operand.noString []⟩
  | @signed _ sign _ _ marked operand =>
    obtain ⟨harmless, noString⟩ := operator_harmless (.inl sign.property)
    refine ⟨harmless.append (operand.harmless (legible _ (by simp))), ?_⟩
    rw [strings_skip marked.kind noString, strings_skip rfl operand.noString]
    rfl

theorem Chain.plain {joins : Kind → Bool} {α : Type} {spells : α → List Token → Prop}
    {render : α → String}
    (operators : ∀ kind, joins kind → Harmless (kind.spelling?.getD "") ∧ kind ≠ .string)
    (item : Plain spells render) :
    Plain (Chain.Spells spells : Chain joins α → List Token → Prop) (Chain.render render) := by
  intro chain tokens spelled legible
  cases spelled with
  | mk first continues =>
    obtain ⟨before, behind⟩ := List.forall_mem_append.mp legible
    obtain ⟨harmless, noStrings⟩ := item _ _ first before
    suffices rest : Harmless (String.join _) ∧ strings _ = [] by
      rw [strings_append, noStrings]
      exact ⟨harmless.append rest.1, rest.2⟩
    clear before legible
    induction continues with
    | nil => exact ⟨.empty, rfl⟩
    | @cons operator _ _ _ _ _ marked spelled _ ih =>
      obtain ⟨_, legible⟩ := List.forall_mem_cons.mp behind
      obtain ⟨here, later⟩ := List.forall_mem_append.mp legible
      obtain ⟨sign, noString⟩ := operators _ operator.property
      obtain ⟨harmless, noStrings⟩ := item _ _ spelled here
      obtain ⟨others, noOthers⟩ := ih later
      have blank : Harmless " " := by decide
      rw [strings_skip marked.kind noString, strings_append, noStrings, noOthers, List.map_cons,
        String.join_cons]
      exact ⟨(((blank.append sign).append blank).append harmless).append others, rfl⟩

theorem Expression.plain : Plain Expression.Spells Expression.render :=
  Chain.plain (fun _ joins => operator_harmless (.inl joins))
    (Chain.plain (fun _ joins => operator_harmless (.inr (.inl joins))) Factor.plain)

theorem Condition.plain : Plain Condition.Spells Condition.render :=
  fun condition =>
    Chain.plain (fun _ joins => operator_harmless (.inr (.inr joins))) Expression.plain
      condition.toChain

theorem Factor.rename_id (factor : Factor) : factor.rename id = factor := by
  obtain ⟨sign, operand⟩ := factor
  cases operand <;> rfl

theorem Chain.map_same {joins : Kind → Bool} {α : Type} {change : α → α}
    (same : ∀ x, change x = x) (chain : Chain joins α) : chain.map change = chain := by
  obtain rfl : change = id := funext same
  rw [Chain.map, Prod.map_id, List.map_id]
  rfl

@[simp] theorem Expression.rename_id (value : Expression) : Expression.rename id value = value :=
  Chain.map_same (Chain.map_same Factor.rename_id) value

@[simp] theorem Condition.rename_id (condition : Condition) : condition.rename id = condition := by
  have chain := Chain.map_same Expression.rename_id condition.toChain
  simp only [Condition.rename, chain]

/-- Nothing, in place of the content of a string. -/
def blank (_ : String) : String := ""

/-- The line that prints a text, with its literal set apart. -/
theorem printed (level : Nat) (text : String) :
    indentation level ++ "cout << \"" ++ text ++ "\" << endl;\n" =
      indentation level ++ ("cout << " ++ ("\"" ++ text ++ "\"" ++ " << endl;\n")) := by
  have opening : "cout << \"" = "cout << " ++ "\"" := by decide
  have closing : "\" << endl;\n" = "\"" ++ " << endl;\n" := by decide
  rw [opening, closing]
  simp only [String.append_assoc]

theorem Statement.frames_alone {statement : Statement} {tokens : List Token}
    (spelled : statement.SpellsAlone tokens) (legible : ∀ token ∈ tokens, token.Legible)
    (seen : List String) (level : Nat) (due : List Char) :
    Frames (statement.render seen level) ((statement.reword id blank).render seen level)
      (strings tokens) due due := by
  have indented := indentation_harmless level
  have equals' : Harmless " = " := by decide
  have ended : Harmless ";\n" := by decide
  cases spelled with
  | @printText _ text _ word string broken =>
    obtain ⟨_, spelled⟩ := (legible text (by simp)).spelled string (by decide)
    have content : '"' ∉ text.text.toList ∧ '\\' ∉ text.text.toList :=
      ⟨fun quote => spelled.content _ quote (by simp),
        fun escape => spelled.content _ escape (by simp)⟩
    have before : Harmless "cout << " := by decide
    have behind : Harmless " << endl;\n" := by decide
    have line := (Frames.harmless indented due).append ((Frames.harmless before due).append
      ((Frames.literal content due).append (Frames.harmless behind due)))
    rw [← printed, ← printed] at line
    rw [strings_skip word (by decide), strings_found string, strings_newlines broken.newlines]
    exact line
  | print word value broken =>
    obtain ⟨_, legible⟩ := List.forall_mem_cons.mp legible
    obtain ⟨harmless, noStrings⟩ :=
      Expression.plain _ _ value (List.forall_mem_append.mp legible).1
    have opens : Frames "cout << (double)(" "cout << (double)(" [] due (')' :: due) :=
      .code (by decide) fun _ => rfl
    have closes : Frames ") << endl;\n" ") << endl;\n" [] (')' :: due) due :=
      .code (by decide) fun _ => rfl
    rw [reword, Expression.rename_id, strings_skip word (by decide), strings_append, noStrings,
      strings_newlines broken.newlines]
    exact (((Frames.harmless indented due).append opens).append (.harmless harmless _)).append closes
  | @declare _ name _ _ _ _ word identifier equals value broken =>
    have target := IsName.harmless ((legible name (by simp)).spelled identifier (by decide))
    obtain ⟨_, _, _, legible⟩ := by simpa only [List.forall_mem_cons] using legible
    obtain ⟨harmless, noStrings⟩ :=
      Expression.plain _ _ value (List.forall_mem_append.mp legible).1
    have first : Harmless (if name.text ∈ seen then "" else "double ") := by split <;> decide
    rw [reword, Expression.rename_id, strings_skip word (by decide),
      strings_skip identifier (by decide), strings_skip equals (by decide), strings_append,
      noStrings, strings_newlines broken.newlines]
    exact .harmless (((((indented.append first).append target).append equals').append
      harmless).append ended) due
  | @assign name _ _ _ _ identifier equals value broken =>
    have target := IsName.harmless ((legible name (by simp)).spelled identifier (by decide))
    obtain ⟨_, _, legible⟩ := by simpa only [List.forall_mem_cons] using legible
    obtain ⟨harmless, noStrings⟩ :=
      Expression.plain _ _ value (List.forall_mem_append.mp legible).1
    rw [reword, Expression.rename_id, strings_skip identifier (by decide),
      strings_skip equals (by decide), strings_append, noStrings, strings_newlines broken.newlines]
    exact .harmless ((((indented.append target).append equals').append harmless).append ended) due
  | input word name broken =>
    rw [strings_skip word (by decide), strings_skip name (by decide),
      strings_newlines broken.newlines]
    exact .harmless .empty due

theorem BlockForm.opening_frames (form : BlockForm) (due : List Char) :
    Frames form.opening form.opening [] due (')' :: due) := by
  cases form <;> exact .code (by decide) fun _ => rfl

theorem Statement.frames {statements : List Statement} {tokens : List Token}
    (spelled : Statement.Spell statements tokens) (legible : ∀ token ∈ tokens, token.Legible)
    (seen : List String) (level : Nat) (due : List Char) :
    Frames (Statement.renderAll seen level statements)
      (Statement.renderAll seen level (Statement.rewordAll id blank statements))
      (strings tokens) due due := by
  induction spelled generalizing seen level due with
  | nil => exact .harmless .empty due
  | alone alone _ ih =>
    obtain ⟨here, later⟩ := List.forall_mem_append.mp legible
    rw [strings_append, rewordAll, renderAll, renderAll, Statement.introduced_reword, List.map_id]
    exact (Statement.frames_alone alone here seen level due).append (ih later _ _ _)
  | @block form condition body rest word opening closing tokens inner within outer more opens
      compares opened broken _ closed broken' _ ihBody ih =>
    simp only [List.forall_mem_cons, List.forall_mem_append] at legible
    obtain ⟨_, comparing, _, _, inside, _, _, later⟩ := legible
    obtain ⟨harmless, noStrings⟩ := Condition.plain _ _ compares comparing
    have indented := indentation_harmless level
    -- The parenthesis of the condition is closed where the brace opens, and the lines of the body
    -- stand where that brace is due.
    have opensBlock : Frames ") \x7b\n" ") \x7b\n" [] (')' :: due) ('\x7d' :: due) :=
      .code (by decide) fun _ => rfl
    have closesBlock : Frames "\x7d\n" "\x7d\n" [] ('\x7d' :: due) due :=
      .code (by decide) fun _ => rfl
    have first := (((Frames.harmless indented due).append (form.opening_frames due)).append
      (.harmless harmless _)).append opensBlock
    have whole := ((first.append (ihBody inside seen (level + 1) _)).append
      (.harmless indented _)).append closesBlock
    simp only [List.append_nil, List.nil_append] at whole
    have found : strings (word :: (tokens ++ opening :: (inner ++ (within ++ closing ::
        (outer ++ more))))) = strings within ++ strings more := by
      rw [strings_skip opens (by cases form <;> decide), strings_append, noStrings,
        strings_skip opened (by decide), strings_append, strings_newlines broken.newlines,
        strings_append, strings_skip closed (by decide), strings_append,
        strings_newlines broken'.newlines]
      rfl
    rw [found, rewordAll, renderAll, renderAll, Statement.introduced_reword, List.map_id, reword,
      Condition.rename_id]
    exact whole.append (ih later _ _ _)

/-- The program of a script, next to the program of the script without contents of strings. -/
theorem Spells.frames {statements : List Statement} {tokens : List Token}
    (spelled : Spells statements tokens) (legible : ∀ token ∈ tokens, token.Legible) :
    Frames (render statements) (render (Statement.rewordAll id blank statements))
      (strings tokens) [] [] := by
  have opens : Frames ("#include<iostream>\nusing namespace std;\n\nint main() \x7b\n" ++ "\n")
      ("#include<iostream>\nusing namespace std;\n\nint main() \x7b\n" ++ "\n")
      [] [] ['\x7d'] :=
    .code (by decide) fun _ => rfl
  have closes : Frames "\n    return 0;\n\x7d\n" "\n    return 0;\n\x7d\n" [] ['\x7d'] [] :=
    .code (by decide) fun _ => rfl
  cases spelled with
  | mk newlines spelled last =>
    simp only [List.forall_mem_append] at legible
    rw [strings_append, strings_newlines newlines, strings_append, strings_skip last (by decide)]
    exact (opens.append (Statement.frames spelled legible.2.1 [] 1 _)).append closes

end Script

/-- Tokens that differ in their places at most, and in what they say if they are strings. -/
structure Token.SameButString (token other : Token) : Prop where
  kind : other.kind = token.kind
  text : token.kind ≠ .string → other.text = token.text

instance : DecidableRel Token.SameButString :=
  fun token other =>
    decidable_of_iff (other.kind = token.kind ∧ (token.kind ≠ .string → other.text = token.text))
      ⟨fun ⟨kind, text⟩ => ⟨kind, text⟩, fun ⟨kind, text⟩ => ⟨kind, text⟩⟩

/-- The token without its content, if it is a string. -/
def Token.blanked (token : Token) : Token :=
  { token with text := token.kind.reword id Script.blank token.text }

theorem Token.SameButString.blanked {token other : Token} (same : token.SameButString other) :
    token.Reworded id Script.blank other.blanked := by
  refine ⟨same.kind, ?_⟩
  change other.kind.reword id Script.blank other.text = _
  rw [same.kind]
  by_cases string : token.kind = .string
  · rw [string]
    rfl
  · rw [same.text string]

/-- Strings that differ make no difference to the tree, their contents apart. -/
theorem Script.Spells.sameButStrings {source other : String} {tokens others : List Token}
    {statements : List Script.Statement} (spelled : Script.Spells statements tokens)
    (script : IsScript tokens) (read : tokenize source = .ok tokens)
    (read' : tokenize other = .ok others)
    (same : List.Forall₂ Token.SameButString tokens others) :
    ∃ statements', Script.Spells statements' others ∧
      Mention.Scoped [] (Script.Statement.mentionsAll statements') ∧
      Script.Statement.rewordAll id Script.blank statements' =
        Script.Statement.rewordAll id Script.blank statements := by
  -- Without their contents, both lists of tokens are the same but for the places.
  have reworded : List.Forall₂ (Token.Reworded id Script.blank) tokens
      (others.map Token.blanked) :=
    List.forall₂_map_right_iff.mpr (same.imp fun _ _ => Token.SameButString.blanked)
  have reworded' : List.Forall₂ (Token.Reworded id Script.blank) others
      (others.map Token.blanked) :=
    List.forall₂_map_right_iff.mpr (List.forall₂_same.mpr fun _ _ => ⟨rfl, rfl⟩)
  have script' : IsScript others := by
    rw [← isScript_reworded (Set.injOn_id _) (tokenize_occurring read') reworded',
      isScript_reworded (Set.injOn_id _) (tokenize_occurring read) reworded]
    exact script
  obtain ⟨statements', spelled', declared'⟩ := script'.tree (tokenize_regular read')
  exact ⟨statements', spelled', declared',
    (spelled'.reworded reworded').unique (spelled.reworded reworded)⟩

/-- The literals of a generated program are the strings of the script, in their order, each on one
line, and nothing is escaped. Outside of the literals parentheses and braces are balanced, and what
stands there is the same for all scripts that differ in what their strings say. -/
theorem compile_quotation {source output : String} (compiled : compile source = .ok output) :
    ∃ tokens, tokenize source = .ok tokens ∧ '\\' ∉ output.toList ∧
      (∀ text ∈ strings tokens, '\n' ∉ text.toList) ∧
      ∃ outside, Cpp.quotation output = ⟨outside, strings tokens, none⟩ ∧
        Cpp.WellBracketed outside ∧
        ∀ other others, tokenize other = .ok others →
          List.Forall₂ Token.SameButString tokens others →
          ∃ output', compile other = .ok output' ∧
            Cpp.quotation output' = ⟨outside, strings others, none⟩ := by
  obtain ⟨tokens, statements, read, spelled, declared, rfl⟩ := compile_generates compiled
  have frames := spelled.frames (tokenize_legible read)
  rw [Script.text_generated] at compiled ⊢
  refine ⟨tokens, read, frames.noEscape, ?_, _, frames.quotation, frames.wellBracketed, ?_⟩
  · intro text member newline
    obtain ⟨token, within, rfl⟩ := List.mem_map.mp member
    obtain ⟨within, string⟩ := List.mem_filter.mp within
    obtain ⟨_, content⟩ :=
      (tokenize_legible read token within).spelled (of_decide_eq_true string) (by decide)
    exact content.content _ newline (by simp)
  · intro other others read' same
    have script := (compiled_iff_isScript read).mp ⟨_, compiled⟩
    obtain ⟨statements', spelled', declared', blanks⟩ :=
      spelled.sameButStrings script read read' same
    refine ⟨_, spelled'.compiles declared' read', ?_⟩
    rw [Script.text_generated, ← blanks]
    exact (spelled'.frames (tokenize_legible read')).quotation

theorem brackets_within_quotes :
    ∃ output output' outside, compile "print \"a\x7b(#\"" = .ok output ∧
      compile "print \")//\"" = .ok output' ∧
      Cpp.quotation output = ⟨outside, ["a\x7b(#"], none⟩ ∧
      Cpp.quotation output' = ⟨outside, [")//"], none⟩ ∧ Cpp.WellBracketed outside := by
  have read : tokenize "print \"a\x7b(#\"" = .ok
      [⟨.print, "print", ⟨1, 1⟩⟩, ⟨.string, "a\x7b(#", ⟨1, 7⟩⟩, ⟨.newline, "\n", ⟨1, 13⟩⟩,
        ⟨.eof, "", ⟨2, 1⟩⟩] := by
    cbv
  have read' : tokenize "print \")//\"" = .ok
      [⟨.print, "print", ⟨1, 1⟩⟩, ⟨.string, ")//", ⟨1, 7⟩⟩, ⟨.newline, "\n", ⟨1, 12⟩⟩,
        ⟨.eof, "", ⟨2, 1⟩⟩] := by
    cbv
  obtain ⟨output, compiled⟩ : ∃ output, compile "print \"a\x7b(#\"" = .ok output := ⟨_, by cbv⟩
  obtain ⟨tokens, again, _, _, outside, quotation, bracketed, others⟩ := compile_quotation compiled
  cases Except.ok.inj (read.symm.trans again)
  obtain ⟨output', compiled', quotation'⟩ := others _ _ read' (by decide)
  exact ⟨output, output', outside, compiled, compiled', quotation, quotation', bracketed⟩

end ScriptToCpp
