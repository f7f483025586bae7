import ScriptToCpp.Proofs.CppTrees
import ScriptToCpp.Proofs.Expressions
import ScriptToCpp.Proofs.StringIsolation

/-! The arithmetic of a script and the arithmetic of its program. What is written for an expression
is cut in C++ into the same tokens, with the names and numbers of C++, and every number keeps its
value. The tokens are grouped in the same way, unless a name is written as a word that C++ keeps for
itself. -/
namespace ScriptToCpp

/-- How a token of an expression is written in C++. -/
def Token.cpp (token : Token) : String :=
  match token.kind with
  | .number => Cpp.numberLiteral token.text
  | .identifier => Cpp.variableName token.text
  | _ => token.text

namespace Cpp

/-- Digits, a point and digits: a floating literal of C++. -/
def IsDecimal (text : List Char) : Prop :=
  ∃ digits decimals, text = digits ++ '.' :: decimals ∧ digits ≠ [] ∧ (∀ c ∈ digits, c.isDigit) ∧
    decimals ≠ [] ∧ ∀ c ∈ decimals, c.isDigit

def digitsValue (digits : List Char) : ℕ :=
  digits.foldl (fun value digit => 10 * value + (digit.toNat - '0'.toNat)) 0

/-- The number that digits stand for, with or without a point among them. -/
def rational (text : List Char) : ℚ :=
  let whole := text.takeWhile (· ≠ '.')
  let decimals := (text.dropWhile (· ≠ '.')).tail
  digitsValue (whole ++ decimals) / 10 ^ decimals.length

theorem rational_whole {digits : List Char} (plain : '.' ∉ digits) :
    rational digits = digitsValue digits := by
  have all : ∀ c ∈ digits, decide (c ≠ '.') = true := by
    intro c member
    exact decide_eq_true (ne_of_mem_of_not_mem member plain)
  rw [rational, List.takeWhile_eq_self_iff.mpr all, List.dropWhile_eq_nil_iff.mpr all]
  simp

theorem rational_point {digits decimals : List Char} (plain : '.' ∉ digits) :
    rational (digits ++ '.' :: decimals) =
      digitsValue (digits ++ decimals) / 10 ^ decimals.length := by
  have all : ∀ c ∈ digits, decide (c ≠ '.') = true := by
    intro c member
    exact decide_eq_true (ne_of_mem_of_not_mem member plain)
  rw [rational, List.takeWhile_append_of_pos all, List.dropWhile_append_of_pos all]
  simp

theorem digits_noPoint {digits : List Char} (all : ∀ c ∈ digits, c.isDigit) : '.' ∉ digits :=
  fun member => absurd (all '.' member) (by decide)

/-- A number is written with a point, and keeps its value. -/
theorem numberLiteral_decimal {text : String} {spelling : List Char}
    (spelled : Lexical.Spells .number text spelling) :
    IsDecimal (numberLiteral text).toList ∧
      rational (numberLiteral text).toList = rational text.toList := by
  cases spelled with
  | fixed _ same => cases same
  | whole full digits =>
    have plain := digits_noPoint digits
    have written : (numberLiteral (String.ofList spelling)).toList = spelling ++ ['.', '0'] := by
      rw [numberLiteral, String.toList_ofList, if_neg plain, String.toList_append,
        String.toList_ofList]
      rfl
    rw [written, String.toList_ofList, rational_point plain, rational_whole plain]
    refine ⟨⟨spelling, ['0'], rfl, full, digits, by simp, by simp⟩, ?_⟩
    simp [digitsValue]
  | @fraction digits decimals full whole more fraction =>
    have written : numberLiteral (String.ofList (digits ++ '.' :: decimals)) =
        String.ofList (digits ++ '.' :: decimals) := by
      rw [numberLiteral, String.toList_ofList, if_pos (by simp)]
    rw [written, String.toList_ofList]
    exact ⟨⟨digits, decimals, rfl, full, whole, more, fraction⟩, rfl⟩

/-- What is written for an operand: digits with a point, or a word. -/
structure OperandText (text : String) : Prop where
  formed : IsNumber text.toList ∨
    IsWord text.toList ∧ (text ∈ keywords ++ operatorWords → text ∈ overlooked)
  start : ∃ c ∈ text.toList.head?, isWordPart c
  plain : ∀ c ∈ text.toList, isWordPart c ∨ c = '.'

theorem IsNumber.append {text more : List Char} (number : IsNumber text)
    (parts : ∀ c ∈ more, isWordPart c ∨ c = '.') : IsNumber (text ++ more) := by
  induction more generalizing text with
  | nil => rwa [List.append_nil]
  | cons c more ih =>
    rw [List.forall_mem_cons] at parts
    rw [List.append_cons]
    exact ih (.more number parts.1) parts.2

theorem IsDecimal.operandText {text : String} (decimal : IsDecimal text.toList) :
    OperandText text := by
  obtain ⟨digits, decimals, same, full, whole, _, fraction⟩ := decimal
  obtain ⟨first, others, rfl⟩ := List.exists_cons_of_ne_nil full
  have parts : ∀ c ∈ first :: (others ++ '.' :: decimals), isWordPart c ∨ c = '.' := by
    intro c member
    rw [← List.cons_append] at member
    rcases List.mem_append.mp member with before | behind
    · exact .inl (digit_wordPart (whole c before))
    · rcases List.mem_cons.mp behind with point | behind
      · exact .inr point
      · exact .inl (digit_wordPart (fraction c behind))
  have digit := whole first (by simp)
  rw [List.cons_append] at same
  constructor
  · left
    rw [same]
    exact (IsNumber.digit digit).append (List.forall_mem_cons.mp parts).2
  · exact ⟨first, by rw [same]; rfl, digit_wordPart digit⟩
  · rw [same]
    exact parts

end Cpp

theorem IsName.operandText {name : String} (named : IsName name) :
    Cpp.OperandText (Cpp.variableName name) := by
  have letter : ∀ {c : Char}, c.isAlphanum → Cpp.isWordPart c := by
    intro c inside
    rw [Cpp.isWordPart, inside]
    rfl
  obtain ⟨first, rest, same, start⟩ : ∃ first rest, name.toList = first :: rest ∧
      first.isAlpha := by
    obtain ⟨spelling, spelled⟩ := named
    cases spelled with
    | fixed _ same => cases same
    | name letter => exact ⟨_, _, String.toList_ofList, letter⟩
  obtain ⟨more, written, underscore⟩ : ∃ more, (Cpp.variableName name).toList =
      first :: (rest ++ more) ∧ ∀ c ∈ more, Cpp.isWordPart c := by
    rcases Cpp.variableName_cases name with ⟨_, renamed⟩ | ⟨_, kept⟩
    · refine ⟨['_'], ?_, by simp [Cpp.isWordPart]⟩
      rw [renamed, String.toList_append, same]
      rfl
    · exact ⟨[], by rw [kept, same, List.append_nil], by simp⟩
  have parts : ∀ c ∈ first :: (rest ++ more), Cpp.isWordPart c := by
    intro c member
    rw [← List.cons_append, ← same] at member
    rcases List.mem_append.mp member with before | behind
    · exact letter (named.word.1 c before)
    · exact underscore c behind
  constructor
  · refine .inr ⟨?_, fun claimed => ?_⟩
    · rw [written]
      refine ⟨?_, List.cons_ne_nil _ _, parts⟩
      rintro c ⟨⟩
      exact ⟨parts first (by simp), (Lexical.letter_start start).1⟩
    · exact (Cpp.claimed_iff_overlooked named).mp (List.mem_append_left _ claimed)
  · exact ⟨first, by rw [written]; rfl, parts first (by simp)⟩
  · rw [written]
    exact fun c member => .inl (parts c member)

namespace Cpp

/-- A text that is cut into the tokens wherever it may stand, without a comment in it. All tokens
but the operators stand in the tree, and this is how the grammar groups them where none of them is
an overlooked word. -/
structure Faithful (grammar : List String → Arithmetic → Prop) (text : String)
    (tokens : List String) (tree : Arithmetic) : Prop where
  yields : ∀ rest, Delimited rest → Yields text.toList tokens rest
  parted : SlashesParted text.toList
  leaves : ∀ token ∈ tokens, token ∈ ["+", "-", "*", "/"] ∨ token ∈ tree.operands
  parsed : (∀ token ∈ tokens, token ∉ overlooked) → grammar tokens tree

theorem OperandText.operand {text : String} (written : OperandText text)
    (known : text ∉ overlooked) : IsOperand text := by
  rcases written.formed with number | ⟨word, missed⟩
  · exact .inl number
  · exact .inr ⟨word, fun claimed => known (missed claimed)⟩

theorem OperandText.yields {text : String} (operand : OperandText text) {rest : List Char}
    (delimited : Delimited rest) : Yields text.toList [text] rest := by
  obtain ⟨c, first, part⟩ := operand.start
  obtain ⟨others, same⟩ := List.head?_eq_some_iff.mp first
  have start : ∀ x ∈ text.toList.head?, isWordPart x := by
    rintro x head
    cases first.symm.trans head
    exact part
  have code : ¬ StartsComment (text.toList ++ rest) := by
    rw [same]
    rintro (⟨_, slash⟩ | ⟨_, slash⟩) <;>
    · obtain ⟨rfl, _⟩ := List.cons.inj slash
      exact absurd part (by decide)
  have formed : IsToken text.toList := operand.formed.elim .number (fun word => .word word.1)
  have yields := Yields.token code (longest_operand formed start operand.plain delimited)
  rwa [String.ofList_toList] at yields

theorem OperandText.noSlash {text : String} (operand : OperandText text) : '/' ∉ text.toList := by
  intro member
  have plain := operand.plain '/' member
  revert plain
  decide

theorem OperandText.faithful {text : String} (operand : OperandText text) :
    Faithful Unary text [text] (.operand text) where
  yields _ := operand.yields
  parted := .of_notMem operand.noSlash
  leaves := List.forall_mem_singleton.mpr (.inr (List.mem_singleton.mpr rfl))
  parsed known := .operand (operand.operand (known text List.mem_cons_self))

/-- The mark of an operator, before a blank or an operand. -/
theorem yields_operator {operator : String} (arithmetic : operator ∈ ["+", "-", "*", "/"])
    {next : Char} {rest : List Char} (follows : next = ' ' ∨ isWordPart next) :
    Yields operator.toList [operator] (next :: rest) := by
  obtain ⟨mark, chars, member⟩ : ∃ mark, operator.toList = [mark] ∧ mark ∈ ['+', '-', '*', '/'] := by
    simp only [List.mem_cons, List.not_mem_nil, or_false] at arithmetic
    rcases arithmetic with rfl | rfl | rfl | rfl <;> exact ⟨_, rfl, by decide⟩
  obtain ⟨longest, code⟩ := longest_operator member follows
  have yields : Yields [mark] [String.ofList [mark]] (next :: rest) := .token code longest
  rwa [← chars, String.ofList_toList] at yields

theorem OperandText.signed {text sign : String} (operand : OperandText text)
    (signs : sign ∈ ["+", "-"]) :
    Faithful Unary (sign ++ text) [sign, text] (.unary sign (.operand text)) := by
  have arithmetic := (show ["+", "-"] ⊆ ["+", "-", "*", "/"] by decide) signs
  have applied := (show ["+", "-"] ⊆ unaryOperators by decide) signs
  constructor
  · intro rest delimited
    obtain ⟨c, first, part⟩ := operand.start
    obtain ⟨others, same⟩ := List.head?_eq_some_iff.mp first
    have marked : Yields sign.toList [sign] (text.toList ++ rest) := by
      rw [same]
      exact yields_operator arithmetic (.inr part)
    rw [String.toList_append]
    exact marked.append (operand.yields delimited)
  · rw [String.toList_append]
    have noSlash : '/' ∉ sign.toList := by
      simp only [List.mem_cons, List.not_mem_nil, or_false] at signs
      rcases signs with rfl | rfl <;> decide
    exact (SlashesParted.of_notMem noSlash).append (.of_notMem operand.noSlash)
  · exact List.forall_mem_cons.mpr ⟨.inl arithmetic, operand.faithful.leaves⟩
  · exact fun known => .applied applied (operand.faithful.parsed (List.forall_mem_cons.mp known).2)

theorem slashesParted_operator {operator : String} (arithmetic : operator ∈ ["+", "-", "*", "/"]) :
    SlashesParted (" " ++ operator ++ " ").toList := by
  simp only [List.mem_cons, List.not_mem_nil, or_false] at arithmetic
  rcases arithmetic with rfl | rfl | rfl | rfl <;> decide

/-- An operator with blanks around it joins what stands on its left with what stands on its right. -/
theorem Faithful.join {operators : List String} {item : List String → Arithmetic → Prop}
    {text next operator : String} {tokens others : List String} {left right : Arithmetic}
    (first : Faithful (LeftJoined operators item) text tokens left)
    (joins : operator ∈ operators) (arithmetic : operator ∈ ["+", "-", "*", "/"])
    (second : Faithful item next others right) :
    Faithful (LeftJoined operators item) (text ++ (" " ++ operator ++ " " ++ next))
      (tokens ++ operator :: others) (.binary operator left right) := by
  constructor
  · intro rest delimited
    simp only [String.toList_append, List.append_assoc]
    refine (first.yields _ ?_).append ?_
    · rintro c ⟨⟩
      decide
    · exact (Yields.blank _).append ((yields_operator arithmetic (.inl rfl)).append
        ((Yields.blank _).append (second.yields rest delimited)))
  · rw [String.toList_append, String.toList_append]
    exact first.parted.append ((slashesParted_operator arithmetic).append second.parted)
  · refine List.forall_mem_append.mpr ⟨fun token before => ?_, List.forall_mem_cons.mpr
      ⟨.inl arithmetic, fun token behind => ?_⟩⟩
    · exact (first.leaves token before).imp_right (List.mem_append_left _)
    · exact (second.leaves token behind).imp_right (List.mem_append_right _)
  · intro known
    obtain ⟨before, later⟩ := List.forall_mem_append.mp known
    exact .join (first.parsed before) joins (second.parsed (List.forall_mem_cons.mp later).2)

/-- An item stands for itself where items may be joined. -/
theorem Faithful.single {operators : List String} {item : List String → Arithmetic → Prop}
    {text : String} {tokens : List String} {tree : Arithmetic}
    (faithful : Faithful item text tokens tree) :
    Faithful (LeftJoined operators item) text tokens tree :=
  { faithful with parsed := fun known => .single (faithful.parsed known) }

end Cpp

namespace Script
open Cpp (Arithmetic Faithful LeftJoined)

/-- How the script grammar groups an expression: each operator joins all that stands before it in
its chain with the next item. -/
def Chain.tree {joins : Kind → Bool} {α : Type} (item : α → Arithmetic) (chain : Chain joins α) :
    Arithmetic :=
  chain.rest.foldl (fun left (operator, x) => .binary operator.text left (item x)) (item chain.first)

def Factor.tree (factor : Factor) : Arithmetic :=
  match factor.sign with
  | none => .operand factor.operand.render
  | some sign => .unary sign.text (.operand factor.operand.render)

def Term.tree : Term → Arithmetic := Chain.tree Factor.tree

def Expression.tree : Expression → Arithmetic := Chain.tree Term.tree

/-- What tokens spell is written faithfully. -/
def Translates {α : Type} (grammar : List String → Arithmetic → Prop)
    (spells : α → List Token → Prop) (render : α → String) (tree : α → Arithmetic) : Prop :=
  ∀ x tokens, spells x tokens → (∀ token ∈ tokens, token.Legible) →
    Faithful grammar (render x) (tokens.map Token.cpp) (tree x)

theorem Operand.Spells.text {operand : Operand} {token : Token} (spelled : operand.Spells token)
    (legible : token.Legible) : token.cpp = operand.render ∧ Cpp.OperandText operand.render := by
  cases spelled with
  | number kind =>
    obtain ⟨_, spelled⟩ := legible.spelled kind (by decide)
    refine ⟨?_, (Cpp.numberLiteral_decimal spelled).1.operandText⟩
    rw [Token.cpp, kind]
    rfl
  | named kind =>
    refine ⟨?_, IsName.operandText (legible.spelled kind (by decide))⟩
    rw [Token.cpp, kind]
    rfl

theorem Operator.Spells.cpp {joins : Kind → Bool} {operator : Operator joins} {token : Token}
    (spelled : operator.Spells token)
    (other : operator.val ≠ .number ∧ operator.val ≠ .identifier) : token.cpp = operator.text := by
  rw [← spelled.kind] at other
  unfold Token.cpp
  split
  next number => exact absurd number other.1
  next identifier => exact absurd identifier other.2
  next => exact spelled.text

theorem additive_text (operator : Operator Kind.isAdditive) : operator.text ∈ ["+", "-"] ∧
    operator.val ≠ .number ∧ operator.val ≠ .identifier := by
  obtain ⟨kind, additive⟩ := operator
  revert additive
  cases kind <;> decide

theorem multiplicative_text (operator : Operator Kind.isMultiplicative) :
    operator.text ∈ ["*", "/"] ∧ operator.val ≠ .number ∧ operator.val ≠ .identifier := by
  obtain ⟨kind, multiplicative⟩ := operator
  revert multiplicative
  cases kind <;> decide

theorem Factor.translates : Translates Cpp.Unary Factor.Spells Factor.render Factor.tree := by
  intro factor tokens spelled legible
  cases spelled with
  | plain spelled =>
    obtain ⟨same, operand⟩ := spelled.text (legible _ (by simp))
    rw [List.map_singleton, same]
    exact operand.faithful
  | @signed _ sign mark _ marked spelled =>
    obtain ⟨same, operand⟩ := spelled.text (legible _ (by simp))
    obtain ⟨signs, other⟩ := additive_text sign
    rw [List.map_cons, List.map_singleton, same, marked.cpp other]
    exact operand.signed signs

section
variable {joins : Kind → Bool} {α : Type} {grammar : List String → Arithmetic → Prop}
  {spells : α → List Token → Prop} {render : α → String} {tree : α → Arithmetic}
  {operators : List String}

theorem Chain.translates
    {texts : List String} (marks : ∀ operator : Operator joins, operator.text ∈ texts ∧
      operator.val ≠ .number ∧ operator.val ≠ .identifier)
    (arithmetic : ∀ text ∈ texts, text ∈ operators ∧ text ∈ ["+", "-", "*", "/"])
    (item : Translates grammar spells render tree) :
    Translates (LeftJoined operators grammar) (Chain.Spells spells : Chain joins α → _ → _)
      (Chain.render render) (Chain.tree tree) := by
  intro chain tokens spelled legible
  cases spelled with
  | mk first continues =>
    obtain ⟨here, later⟩ := List.forall_mem_append.mp legible
    have start : Faithful (LeftJoined operators grammar) _ _ _ := (item _ _ first here).single
    rw [List.map_append, Chain.render, Chain.tree]
    -- The induction goes along the chain, with all that stands before as one value on the left.
    generalize render _ = text, List.map _ _ = front, tree _ = left at start
    clear first here legible
    induction continues generalizing text front left with
    | nil =>
      rw [List.map_nil, List.map_nil, String.join_nil, String.append_empty, List.append_nil]
      exact start
    | @cons operator x _ token word more marked spelled _ ih =>
      obtain ⟨_, later⟩ := List.forall_mem_cons.mp later
      obtain ⟨here, later⟩ := List.forall_mem_append.mp later
      obtain ⟨listed, other⟩ := marks operator
      obtain ⟨joins, mark⟩ := arithmetic _ listed
      have joined := start.join joins mark (item _ _ spelled here)
      have whole := ih later _ _ _ joined
      rw [List.map_cons, List.map_cons, List.map_append, String.join_cons, marked.cpp other,
        ← String.append_assoc, ← List.cons_append, ← List.append_assoc]
      exact whole

end

/-- The two ranks of the operators of a script are the tightest two of C++. -/
theorem Expression.translates : Translates (Cpp.Ranked Cpp.Unary Cpp.binaryOperators)
    Expression.Spells Expression.render Expression.tree := by
  have chains : Translates (LeftJoined ["+", "-"] (LeftJoined ["*", "/", "%"] Cpp.Unary))
      Expression.Spells Expression.render Expression.tree :=
    Chain.translates additive_text (by decide)
      (Chain.translates multiplicative_text (by decide) Factor.translates)
  intro value tokens spells legible
  have faithful := chains value tokens spells legible
  exact { faithful with
    parsed := fun known => Cpp.Ranked.of_item (faithful.parsed known) (Cpp.binaryOperators.drop 2) }

end Script

/-- The arithmetic of a program is that of its script, but for ten words. Each expression of the
tree, at whatever depth, is spelled among the tokens of the script and written in the program. What
is written for it is cut by C++ into just its tokens, with the names and numbers of C++, and no
comment starts in it; its numbers are floating literals of the same value. C++ groups it as the
script does and in no other way, where none of its names is an overlooked word; and where one is, it
does not. -/
theorem compile_arithmetic {source output : String} (compiled : compile source = .ok output) :
    ∃ tokens statements, tokenize source = .ok tokens ∧ Script.Spells statements tokens ∧
      output = Script.render statements ∧
      ∀ value ∈ Script.Statement.expressionsAll statements,
        Script.Expression.WrittenIn value output ∧
        ∃ word, word <:+: tokens ∧ Script.Expression.Spells value word ∧
          let text := (Script.Expression.render value).toList
          (∀ pieces, Cpp.Splits text pieces ↔ pieces = word.map Token.cpp) ∧
          (¬ ['/', '/'] <:+: text ∧ ¬ ['/', '*'] <:+: text) ∧
          (∀ token ∈ word, token.kind = .number → Cpp.IsDecimal token.cpp.toList ∧
            Cpp.rational token.cpp.toList = Cpp.rational token.text.toList) ∧
          ((∀ token ∈ word, token.cpp ∉ Cpp.overlooked) →
            ∀ tree, Cpp.Parses text tree ↔ tree = Script.Expression.tree value) ∧
          ∀ token ∈ word, token.cpp ∈ Cpp.overlooked →
            ¬ Cpp.Parses text (Script.Expression.tree value) := by
  obtain ⟨tokens, statements, read, spelled, _, rfl⟩ := compile_renders compiled
  refine ⟨tokens, statements, read, spelled, rfl, fun value member =>
    ⟨Script.writtenIn_render statements value member, ?_⟩⟩
  obtain ⟨word, within, spells⟩ := spelled.spelledIn value member
  have legible : ∀ token ∈ word, token.Legible :=
    fun token inside => tokenize_legible read token (within.subset inside)
  have faithful := Script.Expression.translates value word spells legible
  have splits := (faithful.yields [] Cpp.delimited_nil).whole
  refine ⟨word, within, spells, splits, faithful.parted.noComment, fun token inside number => ?_,
    fun known tree => ?_, fun token inside missed parses => ?_⟩
  · obtain ⟨_, numeral⟩ := (legible token inside).spelled number (by decide)
    rw [Token.cpp, number]
    exact Cpp.numberLiteral_decimal numeral
  · have parses : Cpp.Parses _ (Script.Expression.tree value) :=
      ⟨_, (splits _).mpr rfl, faithful.parsed (List.forall_mem_map.mpr known)⟩
    exact ⟨fun other => other.unique splits parses, fun same => same ▸ parses⟩
  · rcases faithful.leaves token.cpp (List.mem_map_of_mem inside) with operator | leaf
    · have apart : ∀ mark ∈ ["+", "-", "*", "/"], mark ∉ Cpp.overlooked := by decide
      exact apart _ operator missed
    · exact parses.notOverlooked _ leaf missed

/-- What is complemented is the value on the right with its sign. -/
theorem Cpp.complement_grouped :
    Ranked Unary binaryOperators ["2.0", "-", "compl", "-", "1.0"]
      (.binary "-" (.operand "2.0") (.unary "compl" (.unary "-" (.operand "1.0")))) := by
  have number : ∀ {digit}, digit.isDigit → IsNumber [digit, '.', '0'] :=
    fun is => (IsNumber.digit is).append (by simp [isWordPart])
  have left : Unary ["2.0"] (.operand "2.0") := .operand (.inl (number (by decide)))
  have right : Unary ["compl", "-", "1.0"] (.unary "compl" (.unary "-" (.operand "1.0"))) :=
    .applied (by decide) (.applied (by decide) (.operand (.inl (number (by decide)))))
  have product : LeftJoined ["*", "/", "%"] Unary _ _ := .single right
  have joined := LeftJoined.join (.single (.single left)) (show "-" ∈ ["+", "-"] by decide) product
  exact Ranked.of_item joined (binaryOperators.drop 2)

/-- A variable whose name C++ reads as an operator: what was meant to be taken away is never read,
and the value on its right is complemented instead. -/
theorem complement_misread :
    let script := "declare compl=1\nprint 2-compl-1"
    let text := "2.0 - compl - 1.0"
    let meant : Cpp.Arithmetic :=
      .binary "-" (.binary "-" (.operand "2.0") (.operand "compl")) (.operand "1.0")
    let understood : Cpp.Arithmetic :=
      .binary "-" (.operand "2.0") (.unary "compl" (.unary "-" (.operand "1.0")))
    let output := "#include<iostream>\nusing namespace std;\n\nint main() \x7b\n\n" ++
      "    double compl = 1.0;\n    cout << (double)(2.0 - compl - 1.0) << endl;\n\n" ++
      "    return 0;\n\x7d\n"
    compile script = .ok output ∧
    ∃ tokens statements value, tokenize script = .ok tokens ∧ Script.Spells statements tokens ∧
      value ∈ Script.Statement.expressionsAll statements ∧
      Script.Expression.render value = text ∧ Script.Expression.tree value = meant ∧
      ¬ Cpp.Parses text.toList meant ∧
      ∀ tree, Cpp.Parses text.toList tree ↔ tree = understood := by
  intro script text meant understood output
  let one : Token := ⟨.number, "1", ⟨1, 15⟩⟩
  let declaration : List Token := [⟨.declare, "declare", ⟨1, 1⟩⟩, ⟨.identifier, "compl", ⟨1, 9⟩⟩,
    ⟨.eq, "=", ⟨1, 14⟩⟩, one, ⟨.newline, "\n", ⟨1, 16⟩⟩]
  let word : List Token := [⟨.number, "2", ⟨2, 7⟩⟩, ⟨.minus, "-", ⟨2, 8⟩⟩,
    ⟨.identifier, "compl", ⟨2, 9⟩⟩, ⟨.minus, "-", ⟨2, 14⟩⟩, ⟨.number, "1", ⟨2, 15⟩⟩]
  let minus : Script.Operator Kind.isAdditive := ⟨.minus, rfl⟩
  let value : Script.Expression := ⟨⟨⟨none, .number "2"⟩, []⟩,
    [(minus, ⟨⟨none, .named "compl"⟩, []⟩), (minus, ⟨⟨none, .number "1"⟩, []⟩)]⟩
  have alone : ∀ {operand token}, Script.Operand.Spells operand token →
      Script.Term.Spells ⟨⟨none, operand⟩, []⟩ [token] :=
    fun spelled => Script.Chain.Spells.mk (Script.Factor.Spells.plain spelled) .nil
  have spells : Script.Expression.Spells value word :=
    Script.Chain.Spells.mk (alone (@Script.Operand.Spells.number ⟨.number, "2", ⟨2, 7⟩⟩ rfl))
      (.cons ⟨rfl, rfl⟩ (alone (@Script.Operand.Spells.named ⟨.identifier, "compl", ⟨2, 9⟩⟩ rfl))
        (.cons ⟨rfl, rfl⟩ (alone (@Script.Operand.Spells.number ⟨.number, "1", ⟨2, 15⟩⟩ rfl)) .nil))
  have declares : Script.Statement.SpellsAlone (.declare "compl" (.single (.number "1")))
      declaration :=
    @Script.Statement.SpellsAlone.declare _ ⟨.identifier, "compl", ⟨1, 9⟩⟩ _ _ _ _ rfl rfl rfl
      (@Script.Operand.Spells.number one rfl).single (.single ⟨.newline, "\n", ⟨1, 16⟩⟩ rfl)
  have prints : Script.Statement.SpellsAlone (.print value)
      (⟨.print, "print", ⟨2, 1⟩⟩ :: (word ++ [⟨.newline, "\n", ⟨2, 16⟩⟩])) :=
    .print rfl spells (.single _ rfl)
  have spelled : Script.Spells [.declare "compl" (.single (.number "1")), .print value] _ :=
    @Script.Spells.mk _ [] _ ⟨.eof, "", ⟨3, 1⟩⟩ nofun (.alone declares (.alone prints .nil)) rfl
  have read : tokenize script = .ok (declaration ++ (⟨.print, "print", ⟨2, 1⟩⟩ ::
      (word ++ [⟨.newline, "\n", ⟨2, 16⟩⟩, ⟨.eof, "", ⟨3, 1⟩⟩]))) := by
    decide +kernel
  have compiled : compile script = .ok output := by decide +kernel
  obtain ⟨_, _, read', spelled', _, all⟩ := compile_arithmetic compiled
  cases Except.ok.inj (read.symm.trans read')
  cases spelled.unique spelled'
  have member : value ∈ Script.Statement.expressionsAll
      [.declare "compl" (.single (.number "1")), .print value] :=
    List.mem_cons_of_mem _ List.mem_cons_self
  obtain ⟨_, word', _, _, splits, _, _, _, misread⟩ := all value member
  -- The text is cut in one way, so that the expression is spelled by the tokens that it has here.
  have legible : ∀ token ∈ word, token.Legible := fun token inside =>
    tokenize_legible read token (List.mem_append_right _ (List.mem_cons_of_mem _
      (List.mem_append_left _ inside)))
  have same : word'.map Token.cpp = word.map Token.cpp :=
    have faithful := Script.Expression.translates value word spells legible
    ((faithful.yields [] Cpp.delimited_nil).whole _).mp ((splits _).mpr rfl)
  have listed : word.map Token.cpp = ["2.0", "-", "compl", "-", "1.0"] := by decide
  rw [same, listed] at splits
  obtain ⟨token, inside, named⟩ : ∃ token ∈ word', token.cpp = "compl" :=
    List.mem_map.mp (by rw [same, listed]; decide)
  have written : Script.Expression.render value = text := by decide
  have grouped : Script.Expression.tree value = meant := by decide
  have wrong := misread token inside (by rw [named]; decide)
  rw [written] at splits wrong
  rw [grouped] at wrong
  have parses : Cpp.Parses text.toList understood :=
    ⟨_, (splits _).mpr rfl, Cpp.complement_grouped⟩
  exact ⟨compiled, _, _, value, read, spelled, member, written, grouped, wrong, fun tree =>
    ⟨fun other => other.unique splits parses, fun same => same ▸ parses⟩⟩

end ScriptToCpp
